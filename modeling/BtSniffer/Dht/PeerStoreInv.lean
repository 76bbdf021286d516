import BtSniffer.Dht.PeerStore

/-!
# The indexes of the peer store

* `Consistent` — `expiry` and `hashes` index exactly the peers and the groups, and no group is empty.
* `Drops` — a store that lost some peers of another and is still consistent; `remove`, `expire` and
  the three evictions of `announce` are of this kind, and none of them panics.
* `total`, `size` and `groups` do not grow, and fall when a peer or a group is gone.
-/

set_option autoImplicit false

namespace BtSniffer

open Relational

theorem Group.latest_eq_some {g : Group} {d : Nat} : g.latest = some d ↔
    (∃ p ∈ g.members.rows, p.deadline = d) ∧ ∀ p ∈ g.members.rows, p.deadline ≤ d := by
  unfold Group.latest
  rw [List.max?_eq_some_iff]
  simp only [List.mem_map, forall_exists_index, and_imp, forall_apply_eq_imp_iff₂]

theorem Group.latest_eq_none {g : Group} : g.latest = none ↔ g.members.rows = [] := by
  unfold Group.latest
  rw [List.max?_eq_none_iff, List.map_eq_nil_iff]

theorem Group.latest_of_nonempty {g : Group} (h : g.members.rows ≠ []) :
    ∃ d, g.latest = some d := by
  cases hl : g.latest with
  | none => exact absurd (Group.latest_eq_none.1 hl) h
  | some d => exact ⟨d, rfl⟩

namespace PeerStore

variable {s s' t : PeerStore}

theorem deadline?_eq_some {h : SwarmKey} {a : SocketAddr} {d : Nat} : s.deadline? h a = some d ↔
    ∃ g, s.peers.get? h = some g ∧ g.members.get? a = some ⟨a, d⟩ := by
  unfold deadline?
  simp only [Option.bind_eq_some_iff, Option.map_eq_some_iff]
  constructor
  · rintro ⟨g, hg, p, hp, rfl⟩
    obtain ⟨-, rfl⟩ := Table.get?_eq_some.1 hp
    exact ⟨g, hg, hp⟩
  · rintro ⟨g, hg, hp⟩
    exact ⟨g, hg, _, hp, rfl⟩

/-- The two indexes agree with the peers. -/
structure Consistent (s : PeerStore) : Prop where
  expiry : ∀ d h a, ⟨d, h, a⟩ ∈ s.expiry ↔ s.deadline? h a = some d
  nonempty : ∀ h g, s.peers.get? h = some g → g.members.rows ≠ []
  hashes : ∀ d h, ⟨d, h⟩ ∈ s.hashes ↔ ∃ g, s.peers.get? h = some g ∧ g.latest = some d

theorem Consistent.exists_peer (h : s.Consistent) {hash : SwarmKey} {g : Group}
    (hg : s.peers.get? hash = some g) : ∃ a d, s.deadline? hash a = some d := by
  obtain ⟨p, hp⟩ := List.exists_mem_of_ne_nil _ (h.nonempty hash g hg)
  exact ⟨p.address, p.deadline, deadline?_eq_some.2 ⟨g, hg, Table.get?_key hp⟩⟩

/-- The indexes after the group of one hash was replaced. -/
theorem Consistent.replace (h : s.Consistent) {hash : SwarmKey} {g' : Option Group}
    (hpeers : ∀ x, s'.peers.get? x = if x = hash then g' else s.peers.get? x)
    (hnonempty : ∀ g, g' = some g → g.members.rows ≠ [])
    (hhashes : ∀ d x, ⟨d, x⟩ ∈ s'.hashes ↔
      if x = hash then g'.bind Group.latest = some d else ⟨d, x⟩ ∈ s.hashes)
    (hexpiry : ∀ d x a, ⟨d, x, a⟩ ∈ s'.expiry ↔ s'.deadline? x a = some d) : s'.Consistent where
  expiry := hexpiry
  nonempty := by
    intro x g hg
    rw [hpeers] at hg
    split at hg
    · exact hnonempty g hg
    · exact h.nonempty x g hg
  hashes := by
    intro d x
    rw [hhashes, hpeers]
    split
    · rw [Option.bind_eq_some_iff]
    · exact h.hashes d x

/-- A hash has one entry. -/
theorem Consistent.mem_hashes (h : s.Consistent) {g : Group} (hg : s.peers.get? g.hash = some g)
    {latest : Nat} (hlatest : g.latest = some latest) (d : Nat) :
    ⟨d, g.hash⟩ ∈ s.hashes ↔ d = latest := by
  rw [h.hashes]
  constructor
  · rintro ⟨g', hg', hd⟩
    rw [hg] at hg'
    cases hg'
    exact Option.some.inj (hd.symm.trans hlatest)
  · rintro rfl
    exact ⟨g, hg, hlatest⟩

/-! ## `remove` -/

theorem Consistent.mem_dropExpiry (h : s.Consistent) {g : Group}
    (hg : s.peers.get? g.hash = some g) (address : SocketAddr) (d : Nat) (x : SwarmKey)
    (a : SocketAddr) : ⟨d, x, a⟩ ∈ s.dropExpiry g address ↔
      (if x = g.hash ∧ a = address then none else s.deadline? x a) = some d := by
  unfold dropExpiry
  cases hpeer : g.members.get? address with
  | none =>
    simp only [h.expiry]
    split
    · rename_i hx
      obtain ⟨rfl, rfl⟩ := hx
      simp [deadline?, hg, hpeer]
    · rfl
  | some peer =>
    simp only [OrdSet.mem_remove, h.expiry, ne_eq, ExpiryEntry.mk.injEq, not_and]
    split
    · rename_i hx
      obtain ⟨rfl, rfl⟩ := hx
      simp only [deadline?, hg, hpeer, Option.bind_some, Option.map_some, Option.some.injEq,
        reduceCtorEq, iff_false, not_and, not_forall, not_not]
      rintro rfl
      simp
    · rename_i hx
      constructor
      · exact fun hd => hd.1
      · exact fun hd => ⟨hd, fun _ hxh hah => hx ⟨hxh, hah⟩⟩

/-- **`remove` takes out one peer**, does not panic and keeps the indexes. -/
theorem Consistent.remove (h : s.Consistent) (hash : SwarmKey) (address : SocketAddr) :
    ∃ s', s.remove hash address = some s' ∧ s'.Consistent ∧ s'.config = s.config ∧
      s'.family = s.family ∧ ∀ x a, s'.deadline? x a =
        if x = hash ∧ a = address then none else s.deadline? x a := by
  cases hget : s.peers.get? hash with
  | none =>
    refine ⟨s, by simp [PeerStore.remove, hget], h, rfl, rfl, fun x a => ?_⟩
    split
    · rename_i hx
      obtain ⟨rfl, rfl⟩ := hx
      simp [deadline?, hget]
    · rfl
  | some g =>
    obtain ⟨hmem, rfl⟩ := Table.get?_eq_some.1 hget
    obtain ⟨latest, hlatest⟩ := Group.latest_of_nonempty (h.nonempty g.hash g hget)
    have hold := h.mem_hashes hget hlatest
    cases hrest : Group.latest ⟨g.hash, g.members.erase address⟩ with
    | some later =>
      let after : PeerStore := { s with
        peers := s.peers.insert ⟨g.hash, g.members.erase address⟩
        hashes := (s.hashes.remove ⟨latest, g.hash⟩).insert ⟨later, g.hash⟩
        expiry := s.dropExpiry g address }
      have hpeers : ∀ x, after.peers.get? x =
          if x = g.hash then some ⟨g.hash, g.members.erase address⟩ else s.peers.get? x := by
        intro x
        simp only [after, Table.get?_insert, eq_comm (a := g.hash)]
      have hdead : ∀ x a, after.deadline? x a =
          if x = g.hash ∧ a = address then none else s.deadline? x a := by
        intro x a
        unfold deadline?
        rw [hpeers]
        by_cases hx : x = g.hash
        · subst hx
          by_cases ha : a = address <;> simp [ha, hget]
        · simp [hx]
      refine ⟨after, by simp only [PeerStore.remove, hget, hlatest, hrest]; rfl, ?_, rfl, rfl, hdead⟩
      refine h.replace hpeers ?_ ?_ ?_
      · intro g' hg' hnil
        cases hg'
        rw [Group.latest_eq_none.2 hnil] at hrest
        cases hrest
      · intro d x
        simp only [after, OrdSet.mem_insert, OrdSet.mem_remove, HashEntry.mk.injEq, ne_eq, not_and]
        by_cases hx : x = g.hash
        · subst hx
          simp only [and_true, hold, if_true, Option.bind_some, hrest, Option.some.injEq]
          constructor
          · rintro (rfl | ⟨rfl, hne⟩)
            · rfl
            · exact absurd trivial (hne rfl)
          · rintro rfl
            exact .inl rfl
        · simp [hx]
      · exact fun d x a => (h.mem_dropExpiry hget address d x a).trans (by rw [hdead])
    | none =>
      have hnil : (g.members.erase address).rows = [] := Group.latest_eq_none.1 hrest
      have hother : ∀ a, a ≠ address → g.members.get? a = none := by
        intro a ha
        rw [Table.get?_eq_none]
        intro p hp hpa
        have : p ∈ (g.members.erase address).rows := Table.mem_erase.2 ⟨hp, by rw [hpa]; exact ha⟩
        rw [hnil] at this
        cases this
      let after : PeerStore := { s with
        peers := s.peers.erase g.hash
        hashes := s.hashes.remove ⟨latest, g.hash⟩
        expiry := s.dropExpiry g address }
      have hpeers : ∀ x, after.peers.get? x = if x = g.hash then none else s.peers.get? x := by
        intro x
        simp only [after, Table.get?_erase]
      have hdead : ∀ x a, after.deadline? x a =
          if x = g.hash ∧ a = address then none else s.deadline? x a := by
        intro x a
        unfold deadline?
        rw [hpeers]
        by_cases hx : x = g.hash
        · subst hx
          by_cases ha : a = address
          · simp [ha]
          · simp [ha, hget, hother a ha]
        · simp [hx]
      refine ⟨after, by simp only [PeerStore.remove, hget, hlatest, hrest]; rfl, ?_, rfl, rfl, hdead⟩
      refine h.replace hpeers (fun g' hg' => by cases hg') ?_ ?_
      · intro d x
        simp only [after, OrdSet.mem_remove, HashEntry.mk.injEq, ne_eq, not_and]
        by_cases hx : x = g.hash
        · subst hx
          simp only [hold, if_true, Option.bind_none, reduceCtorEq, iff_false, not_and, not_forall,
            not_not]
          rintro rfl
          simp
        · simp [hx]
      · exact fun d x a => (h.mem_dropExpiry hget address d x a).trans (by rw [hdead])

/-! ## Stores that lost some peers -/

/-- The store lost peers of which `P` holds, and nothing else. -/
structure Drops (s s' : PeerStore) (P : SwarmKey → SocketAddr → Nat → Prop) : Prop where
  consistent : s'.Consistent
  config : s'.config = s.config
  family : s'.family = s.family
  sub : ∀ x a d, s'.deadline? x a = some d → s.deadline? x a = some d
  kept : ∀ x a d, s.deadline? x a = some d → ¬ P x a d → s'.deadline? x a = some d

theorem Drops.refl {P : SwarmKey → SocketAddr → Nat → Prop} (h : s.Consistent) : Drops s s P :=
  ⟨h, rfl, rfl, fun _ _ _ hd => hd, fun _ _ _ hd _ => hd⟩

theorem Drops.trans {P Q : SwarmKey → SocketAddr → Nat → Prop} (h : Drops s s' P)
    (h' : Drops s' t Q) : Drops s t (fun x a d => P x a d ∨ Q x a d) where
  consistent := h'.consistent
  config := h'.config.trans h.config
  family := h'.family.trans h.family
  sub := fun x a d hd => h.sub x a d (h'.sub x a d hd)
  kept := fun x a d hd hn => by
    rw [not_or] at hn
    exact h'.kept x a d (h.kept x a d hd hn.1) hn.2

theorem Drops.mono {P Q : SwarmKey → SocketAddr → Nat → Prop} (h : Drops s s' P)
    (hPQ : ∀ x a d, P x a d → Q x a d) : Drops s s' Q :=
  ⟨h.consistent, h.config, h.family, h.sub, fun x a d hd hn =>
    h.kept x a d hd (fun hp => hn (hPQ x a d hp))⟩

theorem Consistent.remove_drops (h : s.Consistent) (hash : SwarmKey) (address : SocketAddr) :
    ∃ s', s.remove hash address = some s' ∧ Drops s s' (fun x a _ => x = hash ∧ a = address) ∧
      s'.deadline? hash address = none := by
  obtain ⟨s', hs', hc, hconfig, hfamily, hdead⟩ := h.remove hash address
  refine ⟨s', hs', ⟨hc, hconfig, hfamily, ?_, ?_⟩, by rw [hdead, if_pos ⟨rfl, rfl⟩]⟩
  · intro x a d hd
    rw [hdead] at hd
    split at hd
    · cases hd
    · exact hd
  · intro x a d hd hn
    rw [hdead, if_neg hn, hd]

/-- **`expire` takes out peers whose time has come.** -/
theorem Consistent.expire (now : Nat) : ∀ (budget : Nat) {s : PeerStore}, s.Consistent →
    ∃ s', s.expire now budget = some s' ∧ Drops s s' (fun _ _ d => d ≤ now)
  | 0, s, h => ⟨s, rfl, Drops.refl h⟩
  | budget + 1, s, h => by
    unfold PeerStore.expire
    cases hfirst : s.expiry.first with
    | none => exact ⟨s, rfl, Drops.refl h⟩
    | some e =>
      by_cases hlate : e.deadline > now
      · exact ⟨s, by simp [hlate], Drops.refl h⟩
      · obtain ⟨s', hs', hdrops, -⟩ := h.remove_drops e.hash e.address
        obtain ⟨t, ht, hrest⟩ := Consistent.expire now budget hdrops.consistent
        have hdue : s.deadline? e.hash e.address = some e.deadline :=
          (h.expiry _ _ _).1 (OrdSet.first_mem hfirst)
        refine ⟨t, by simp [hlate, hs', ht], ?_⟩
        have hdrops' : Drops s s' (fun _ _ d => d ≤ now) := by
          refine ⟨hdrops.consistent, hdrops.config, hdrops.family, hdrops.sub, ?_⟩
          intro x a d hd hn
          refine hdrops.kept x a d hd ?_
          rintro ⟨rfl, rfl⟩
          rw [hd] at hdue
          cases hdue
          exact hn (not_lt.1 hlate)
        exact (hdrops'.trans hrest).mono (fun x a d hd => hd.elim id id)

/-- `removeAll` takes out the peers it is given. -/
theorem Consistent.removeAll (hash : SwarmKey) : ∀ (addresses : List SocketAddr) {s : PeerStore},
    s.Consistent → ∃ s', s.removeAll hash addresses = some s' ∧
      Drops s s' (fun x _ _ => x = hash) ∧ ∀ a ∈ addresses, s'.deadline? hash a = none
  | [], s, h => ⟨s, rfl, Drops.refl h, fun a ha => (by cases ha)⟩
  | address :: rest, s, h => by
    obtain ⟨s', hs', hdrops, hgone⟩ := h.remove_drops hash address
    obtain ⟨t, ht, hrest, hnone⟩ := Consistent.removeAll hash rest hdrops.consistent
    refine ⟨t, by simp [PeerStore.removeAll, hs', ht], ?_, ?_⟩
    · refine ((hdrops.mono (Q := fun x _ _ => x = hash) fun _ _ _ hp => hp.1).trans hrest).mono ?_
      exact fun x a d hd => hd.elim id id
    · intro a ha
      rcases List.mem_cons.1 ha with rfl | ha
      · rw [Option.eq_none_iff_forall_ne_some]
        intro d hd
        rw [hrest.sub _ _ _ hd] at hgone
        cases hgone
      · exact hnone a ha

/-! ## Sizes -/

/-- The number of peers of a hash. -/
def size (s : PeerStore) (hash : SwarmKey) : Nat :=
  (s.peers.get? hash).elim 0 (fun g => g.members.rows.length)

theorem size_eq {hash : SwarmKey} {g : Group} (h : s.peers.get? hash = some g) :
    s.size hash = g.members.rows.length := by
  simp [size, h]

theorem Consistent.present_iff (h : s.Consistent) {hash : SwarmKey} :
    (s.peers.get? hash).isSome ↔ ∃ a d, s.deadline? hash a = some d := by
  constructor
  · intro hsome
    obtain ⟨g, hg⟩ := Option.isSome_iff_exists.1 hsome
    exact h.exists_peer hg
  · rintro ⟨a, d, hd⟩
    obtain ⟨g, hg, -⟩ := deadline?_eq_some.1 hd
    simp [hg]

section DropSizes

variable {P : SwarmKey → SocketAddr → Nat → Prop}

theorem Drops.present (h : Drops s s' P) (hs : s.Consistent) {hash : SwarmKey}
    (hsome : (s'.peers.get? hash).isSome) : (s.peers.get? hash).isSome := by
  obtain ⟨a, d, hd⟩ := h.consistent.present_iff.1 hsome
  exact hs.present_iff.2 ⟨a, d, h.sub _ _ _ hd⟩

theorem Drops.hashes_subset (h : Drops s s' P) (hs : s.Consistent) :
    s'.peers.rows.map Group.hash ⊆ s.peers.rows.map Group.hash := by
  intro x hx
  obtain ⟨g, hg, rfl⟩ := List.mem_map.1 hx
  have hsome : (s'.peers.get? g.hash).isSome := by rw [Table.get?_key hg]; rfl
  obtain ⟨g', hg'⟩ := Option.isSome_iff_exists.1 (h.present hs hsome)
  obtain ⟨hmem, hhash⟩ := Table.get?_eq_some.1 hg'
  exact List.mem_map.2 ⟨g', hmem, hhash⟩

theorem Drops.groups_le (h : Drops s s' P) (hs : s.Consistent) :
    s'.peers.rows.length ≤ s.peers.rows.length := by
  have := length_le_of_subset s'.peers.nodup (h.hashes_subset hs)
  rwa [List.length_map, List.length_map] at this

theorem Drops.groups_lt (h : Drops s s' P) (hs : s.Consistent) {hash : SwarmKey}
    (hsome : (s.peers.get? hash).isSome) (hnone : s'.peers.get? hash = none) :
    s'.peers.rows.length < s.peers.rows.length := by
  obtain ⟨g, hg⟩ := Option.isSome_iff_exists.1 hsome
  obtain ⟨hmem, hhash⟩ := Table.get?_eq_some.1 hg
  have hlt := length_lt_of_subset (x := hash) s'.peers.nodup (h.hashes_subset hs)
    (List.mem_map.2 ⟨g, hmem, hhash⟩) (by
      intro hx
      obtain ⟨g', hg', he⟩ := List.mem_map.1 hx
      exact Table.get?_eq_none.1 hnone g' hg' he)
  rwa [List.length_map, List.length_map] at hlt

theorem Drops.total_subset (h : Drops s s' P) (hs : s.Consistent) :
    s'.expiry.elems ⊆ s.expiry.elems := by
  intro e he
  exact (hs.expiry _ _ _).2 (h.sub _ _ _ ((h.consistent.expiry _ _ _).1 he))

theorem Drops.total_le (h : Drops s s' P) (hs : s.Consistent) : s'.expiry.len ≤ s.expiry.len :=
  length_le_of_subset s'.expiry.nodup (h.total_subset hs)

theorem Drops.total_lt (h : Drops s s' P) (hs : s.Consistent) {x : SwarmKey} {a : SocketAddr}
    {d : Nat} (hd : s.deadline? x a = some d) (hnone : s'.deadline? x a = none) :
    s'.expiry.len < s.expiry.len := by
  refine length_lt_of_subset (x := ⟨d, x, a⟩) s'.expiry.nodup (h.total_subset hs)
    ((hs.expiry _ _ _).2 hd) ?_
  intro hmem
  rw [(h.consistent.expiry _ _ _).1 hmem] at hnone
  cases hnone

theorem Drops.size_subset (h : Drops s s' P) {hash : SwarmKey} {g g' : Group}
    (hg : s.peers.get? hash = some g) (hg' : s'.peers.get? hash = some g') :
    g'.members.rows.map Peer.address ⊆ g.members.rows.map Peer.address := by
  intro a ha
  obtain ⟨p, hp, rfl⟩ := List.mem_map.1 ha
  have hd : s'.deadline? hash p.address = some p.deadline :=
    deadline?_eq_some.2 ⟨g', hg', Table.get?_key hp⟩
  obtain ⟨g'', hg'', hp''⟩ := deadline?_eq_some.1 (h.sub _ _ _ hd)
  rw [hg] at hg''
  cases hg''
  exact List.mem_map.2 ⟨_, (Table.get?_eq_some.1 hp'').1, rfl⟩

theorem Drops.size_le (h : Drops s s' P) (hs : s.Consistent) (hash : SwarmKey) :
    s'.size hash ≤ s.size hash := by
  cases hg' : s'.peers.get? hash with
  | none => simp [size, hg']
  | some g' =>
    obtain ⟨g, hg⟩ := Option.isSome_iff_exists.1 (h.present hs (show (s'.peers.get? hash).isSome by simp [hg']))
    rw [size_eq hg', size_eq hg]
    have := length_le_of_subset g'.members.nodup (h.size_subset hg hg')
    rwa [List.length_map, List.length_map] at this

theorem Drops.size_lt (h : Drops s s' P) {x : SwarmKey} {a : SocketAddr} {d : Nat}
    (hd : s.deadline? x a = some d) (hnone : s'.deadline? x a = none) : s'.size x < s.size x := by
  obtain ⟨g, hg, hp⟩ := deadline?_eq_some.1 hd
  obtain ⟨hpmem, -⟩ := Table.get?_eq_some.1 hp
  have hain : a ∈ g.members.rows.map Peer.address := List.mem_map.2 ⟨_, hpmem, rfl⟩
  rw [size_eq hg]
  cases hg' : s'.peers.get? x with
  | none =>
    simp only [size, hg', Option.elim_none]
    exact List.length_pos_of_mem hpmem
  | some g' =>
    rw [size_eq hg']
    have hlt := length_lt_of_subset (x := a) g'.members.nodup (h.size_subset hg hg') hain (by
      intro ha
      obtain ⟨p, hp', hpa⟩ := List.mem_map.1 ha
      rw [deadline?_eq_some.2 ⟨g', hg', ?_⟩] at hnone
      · cases hnone
      · exact p.deadline
      · rw [← hpa]
        exact Table.get?_key hp')
    rwa [List.length_map, List.length_map] at hlt

end DropSizes

end PeerStore

end BtSniffer
