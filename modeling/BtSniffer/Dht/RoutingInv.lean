import BtSniffer.Dht.Routing

/-!
# The representation invariant of the routing table

`Shape` is what every operation keeps for every input: the bucket prefixes partition the
identifier space, contacts sit in the bucket of their identifier and no bucket exceeds
`BUCKET_SIZE`.  `Admitted` says that no contact is the local node or of the other address family,
`Distinct` that no identifier occurs twice.

* `insertLoop_spec` — the one description of the insertion loop: it first only splits buckets
  (`Refines`), then performs exactly one of four actions on the bucket of the candidate.
* `insertVerified_some` — under `Shape` the loop returns within its `161` iterations.
* `Edits`, `Settles` — the two ways an operation changes a table, and what they preserve.
-/

set_option autoImplicit false

namespace BtSniffer

/-! ## Prefixes -/

namespace BucketPrefix

/-- The unused bits of a prefix are zero; this is what makes `split` a bisection. -/
structure Canonical (r : BucketPrefix) : Prop where
  len_le : r.prefixLen ≤ 160
  tail_zero : ∀ bit, r.prefixLen ≤ bit → bit < 160 → bitValue r.bits bit = false

theorem contains_iff (r : BucketPrefix) (id : NodeId) :
    r.contains id = true ↔ ∀ bit < r.prefixLen, bitValue r.bits bit = bitValue id bit := by
  simp [contains]

theorem root_contains (id : NodeId) : root.contains id = true := rfl

theorem root_canonical : root.Canonical :=
  ⟨by simp [root], fun bit _ _ => bitValue_zero bit⟩

theorem split_left_contains {r : BucketPrefix} (hc : r.Canonical) (hlt : r.prefixLen < 160)
    (id : NodeId) :
    r.split.1.contains id = (r.contains id && !bitValue id r.prefixLen) := by
  rw [Bool.eq_iff_iff, Bool.and_eq_true, contains_iff, contains_iff]
  have hz := hc.tail_zero r.prefixLen (Nat.le_refl _) hlt
  constructor
  · intro h
    refine ⟨fun bit hb => h bit (by simp only [split]; omega), ?_⟩
    rw [← h r.prefixLen (by simp [split])]
    simp [split, hz]
  · rintro ⟨h, hb⟩ bit hbit
    simp only [split] at hbit ⊢
    rcases Nat.lt_succ_iff_lt_or_eq.1 hbit with hlt' | rfl
    · exact h bit hlt'
    · rw [hz]; simpa using hb

theorem split_right_contains {r : BucketPrefix} (hlt : r.prefixLen < 160) (id : NodeId) :
    r.split.2.contains id = (r.contains id && bitValue id r.prefixLen) := by
  rw [Bool.eq_iff_iff, Bool.and_eq_true, contains_iff, contains_iff]
  simp only [split]
  constructor
  · intro h
    refine ⟨fun bit hb => ?_, ?_⟩
    · rw [← h bit (by omega), bitValue_setBit hlt (by omega), if_neg (by omega)]
    · rw [← h r.prefixLen (by omega), bitValue_setBit hlt hlt, if_pos rfl]
  · rintro ⟨h, hb⟩ bit hbit
    rw [bitValue_setBit hlt (by omega)]
    split
    · rename_i e; rw [e, hb]
    · exact h bit (by omega)

theorem split_left_canonical {r : BucketPrefix} (hc : r.Canonical) (hlt : r.prefixLen < 160) :
    r.split.1.Canonical :=
  ⟨by simp only [split]; omega, fun bit h1 h2 => hc.tail_zero bit (by simp only [split] at h1; omega) h2⟩

theorem split_right_canonical {r : BucketPrefix} (hc : r.Canonical) (hlt : r.prefixLen < 160) :
    r.split.2.Canonical := by
  refine ⟨by simp only [split]; omega, fun bit h1 h2 => ?_⟩
  simp only [split] at h1 ⊢
  rw [bitValue_setBit hlt h2, if_neg (by omega)]
  exact hc.tail_zero bit (by omega) h2

end BucketPrefix

/-! ## Updating the first match -/

theorem updateFirst_none {α : Type} {p : α → Bool} {f : α → α} {l : List α}
    (h : updateFirst p f l = none) : ∀ a ∈ l, p a = false := by
  induction l with
  | nil => simp
  | cons a l ih =>
    simp only [updateFirst] at h
    split at h
    · cases h
    · rename_i hp
      simp only [Option.map_eq_none_iff] at h
      intro b hb
      rcases List.mem_cons.1 hb with rfl | hb
      · simpa using hp
      · exact ih h b hb

/-- The updated list splits at the element found. -/
theorem updateFirst_some {α : Type} {p : α → Bool} {f : α → α} {l l' : List α}
    (h : updateFirst p f l = some l') :
    ∃ pre a post, l = pre ++ a :: post ∧ l' = pre ++ f a :: post ∧ p a = true := by
  induction l generalizing l' with
  | nil => cases h
  | cons a l ih =>
    simp only [updateFirst] at h
    split at h
    · rename_i hp
      cases h
      exact ⟨[], a, l, rfl, rfl, hp⟩
    · simp only [Option.map_eq_some_iff] at h
      obtain ⟨m, hm, rfl⟩ := h
      obtain ⟨pre, b, post, rfl, rfl, hb⟩ := ih hm
      exact ⟨a :: pre, b, post, rfl, rfl, hb⟩

namespace RoutingTable

/-! ## Invariants -/

/-- Partition, placement and size: kept by every operation on every input. -/
structure Shape (t : RoutingTable) : Prop where
  partition : ∀ id, t.buckets.countP (fun b => b.range.contains id) = 1
  canonical : ∀ b ∈ t.buckets, b.range.Canonical
  placed : ∀ b ∈ t.buckets, ∀ c ∈ b.nodes, b.range.contains c.id = true
  size_le : ∀ b ∈ t.buckets, b.nodes.length ≤ BUCKET_SIZE

/-- No contact is the local node, and all are of the table's address family. -/
def Admitted (t : RoutingTable) : Prop :=
  ∀ c ∈ t.contacts, c.id ≠ t.localId ∧ t.addressFamily.accepts c.address = true

/-- The identifiers of the contacts are pairwise distinct. -/
def Distinct (t : RoutingTable) : Prop := (t.contacts.map (·.id)).Nodup

theorem new_shape (localId : NodeId) (family : AddressFamily) (now : Instant) :
    Shape (new localId family now) := by
  refine ⟨fun id => ?_, ?_, ?_, ?_⟩ <;> simp [new, Bucket.new, BucketPrefix.root_contains,
    BucketPrefix.root_canonical]

theorem new_contacts (localId : NodeId) (family : AddressFamily) (now : Instant) :
    (new localId family now).contacts = [] := rfl

/-! ## The bucket of an identifier -/

/-- `bucketOf` splits the bucket list at a bucket that contains the identifier. -/
theorem bucketOf_split {t : RoutingTable} {id : NodeId} {index : Nat} {bucket : Bucket}
    (h : t.bucketOf id = some (index, bucket)) :
    ∃ pre post, t.buckets = pre ++ bucket :: post ∧ pre.length = index ∧
      bucket.range.contains id = true ∧ ∀ b ∈ pre, b.range.contains id = false := by
  unfold bucketOf bucketIndex at h
  cases hf : t.buckets.findIdx? (fun b => b.range.contains id) with
  | none => simp [hf] at h
  | some i =>
    obtain ⟨hi, hp, hpre⟩ := List.findIdx?_eq_some_iff_getElem.1 hf
    simp only [hf, Option.bind_eq_bind, Option.bind_some, List.getElem?_eq_getElem hi,
      Option.some.injEq, Prod.mk.injEq] at h
    obtain ⟨rfl, rfl⟩ := h
    refine ⟨t.buckets.take i, t.buckets.drop (i + 1), ?_, by simp; omega, hp, ?_⟩
    · rw [← List.drop_eq_getElem_cons hi, List.take_append_drop]
    · intro b hb
      obtain ⟨j, hj, rfl⟩ := List.mem_take_iff_getElem.1 hb
      simpa using hpre j (by omega)

/-- **`bucket_index` never panics** on a table whose prefixes partition the space. -/
theorem bucketOf_isSome {t : RoutingTable} (h : t.Shape) (id : NodeId) :
    ∃ index bucket, t.bucketOf id = some (index, bucket) := by
  have hpos : 0 < t.buckets.countP (fun b => b.range.contains id) := by
    rw [h.partition]; exact Nat.one_pos
  obtain ⟨b, hb, hc⟩ := List.countP_pos_iff.1 hpos
  cases hf : t.buckets.findIdx? (fun b => b.range.contains id) with
  | none =>
    have := (List.findIdx?_eq_none_iff.1 hf) b hb
    simp [hc] at this
  | some i =>
    obtain ⟨hi, _⟩ := List.findIdx?_eq_some_iff_getElem.1 hf
    exact ⟨i, t.buckets[i], by simp [bucketOf, bucketIndex, hf, List.getElem?_eq_getElem hi]⟩

theorem setBucket_split {t : RoutingTable} {pre post : List Bucket} {b b' : Bucket} {index : Nat}
    (h : t.buckets = pre ++ b :: post) (hi : pre.length = index) :
    t.setBucket index b' = { t with buckets := pre ++ b' :: post } := by
  subst hi
  simp [setBucket, h]

/-- Replacing the content of one bucket keeps the shape. -/
theorem Shape.replace {t : RoutingTable} {pre post : List Bucket} {b b' : Bucket} (h : t.Shape)
    (hs : t.buckets = pre ++ b :: post) (hr : b'.range = b.range)
    (hp : ∀ c ∈ b'.nodes, b.range.contains c.id = true) (hl : b'.nodes.length ≤ BUCKET_SIZE) :
    Shape { t with buckets := pre ++ b' :: post } := by
  have hmem : ∀ x ∈ pre ++ b' :: post, x = b' ∨ x ∈ t.buckets := by
    intro x hx
    rw [hs]
    simp only [List.mem_append, List.mem_cons] at hx ⊢
    tauto
  have hb : b ∈ t.buckets := by rw [hs]; simp
  refine ⟨fun id => ?_, fun x hx => ?_, fun x hx c hc => ?_, fun x hx => ?_⟩
  · have := h.partition id
    rw [hs] at this
    simpa [List.countP_append, List.countP_cons, hr] using this
  · rcases hmem x hx with rfl | hx
    · rw [hr]; exact h.canonical b hb
    · exact h.canonical x hx
  · rcases hmem x hx with rfl | hx
    · rw [hr]; exact hp c hc
    · exact h.placed x hx c hc
  · rcases hmem x hx with rfl | hx
    · exact hl
    · exact h.size_le x hx

theorem contacts_split {t : RoutingTable} {pre post : List Bucket} {b : Bucket}
    (hs : t.buckets = pre ++ b :: post) :
    t.contacts = pre.flatMap (·.nodes) ++ b.nodes ++ post.flatMap (·.nodes) := by
  simp [contacts, hs]

/-! ## Splitting -/

/-- `s` is `t` with some buckets split: only the distribution of the contacts changed. -/
structure Refines (t s : RoutingTable) : Prop where
  shape : s.Shape
  localId : s.localId = t.localId
  family : s.addressFamily = t.addressFamily
  contacts : s.contacts.Perm t.contacts

theorem Refines.refl {t : RoutingTable} (h : t.Shape) : Refines t t := ⟨h, rfl, rfl, .refl _⟩

theorem Refines.trans {t s u : RoutingTable} (h : Refines t s) (k : Refines s u) : Refines t u :=
  ⟨k.shape, k.localId.trans h.localId, k.family.trans h.family, k.contacts.trans h.contacts⟩

/-- **A split keeps the shape and the contacts.** -/
theorem splitBucket_refines {t : RoutingTable} {id : NodeId} {index : Nat} {b : Bucket}
    (h : t.Shape) (hb : t.bucketOf id = some (index, b)) (hlt : b.range.prefixLen < 160)
    (now : Instant) : Refines t (t.splitBucket index b now) := by
  obtain ⟨pre, post, hs, rfl, _, _⟩ := bucketOf_split hb
  have hmem : b ∈ t.buckets := by rw [hs]; simp
  have hcan := h.canonical b hmem
  have htake : t.buckets.take pre.length = pre := by rw [hs]; simp
  have hdrop : t.buckets.drop (pre.length + 1) = post := by rw [hs]; simp
  have hL := BucketPrefix.split_left_contains hcan hlt
  have hR := BucketPrefix.split_right_contains (r := b.range) hlt
  have hrest : ∀ x, x ∈ pre ∨ x ∈ post → x ∈ t.buckets := by
    intro x hx; rw [hs]; simp only [List.mem_append, List.mem_cons]; tauto
  refine ⟨⟨fun i => ?_, fun x hx => ?_, fun x hx c hc => ?_, fun x hx => ?_⟩, rfl, rfl, ?_⟩
  · have := h.partition i
    rw [hs] at this
    simp only [splitBucket, htake, hdrop, Bucket.new, List.countP_append, List.countP_cons] at this ⊢
    rw [hL i, hR i]
    cases hb1 : b.range.contains i <;> cases bitValue i b.range.prefixLen <;> simp_all
  · simp only [splitBucket, htake, hdrop, List.mem_append, List.mem_cons] at hx
    rcases hx with hx | rfl | rfl | hx
    · exact h.canonical x (hrest x (.inl hx))
    · exact BucketPrefix.split_left_canonical hcan hlt
    · exact BucketPrefix.split_right_canonical hcan hlt
    · exact h.canonical x (hrest x (.inr hx))
  · simp only [splitBucket, htake, hdrop, List.mem_append, List.mem_cons] at hx
    rcases hx with hx | rfl | rfl | hx
    · exact h.placed x (hrest x (.inl hx)) c hc
    · simp only [Bucket.new, List.mem_filter] at hc ⊢
      exact hc.2
    · -- a resident that is not on the left has the split bit set
      simp only [Bucket.new, List.mem_filter, Bool.not_eq_true'] at hc ⊢
      have hin := h.placed b hmem c hc.1
      have hnl := hc.2
      rw [hL, hin] at hnl
      rw [hR, hin]
      simpa using hnl
    · exact h.placed x (hrest x (.inr hx)) c hc
  · have hsize := h.size_le b hmem
    simp only [splitBucket, htake, hdrop, List.mem_append, List.mem_cons] at hx
    rcases hx with hx | rfl | rfl | hx
    · exact h.size_le x (hrest x (.inl hx))
    · exact Nat.le_trans (List.length_filter_le _ _) hsize
    · exact Nat.le_trans (List.length_filter_le _ _) hsize
    · exact h.size_le x (hrest x (.inr hx))
  · rw [contacts_split hs]
    simp only [contacts, splitBucket, htake, hdrop, List.flatMap_append, List.flatMap_cons]
    rw [List.append_assoc, ← List.append_assoc (List.filter _ b.nodes)]
    exact ((List.filter_append_perm _ b.nodes).append_right _).append_left _

/-! ## The insertion loop -/

/-- What the last iteration of the insertion loop does to the table `s` it runs on. -/
inductive Settles (s : RoutingTable) (candidate : NodeContact) (now : Instant) :
    InsertOutcome → RoutingTable → Prop
  | inserted {pre post : List Bucket} {b : Bucket} (split : s.buckets = pre ++ b :: post)
      (mem : b.range.contains candidate.id = true) (room : b.nodes.length < BUCKET_SIZE) :
      Settles s candidate now .inserted { s with buckets := pre ++
        { b with nodes := b.nodes ++ [candidate], lastChanged := now } :: post }
  | replacedBad {pre post : List Bucket} {b : Bucket} {left right : List NodeContact}
      {removed : NodeContact} (split : s.buckets = pre ++ b :: post)
      (mem : b.range.contains candidate.id = true) (nodes : b.nodes = left ++ removed :: right)
      (bad : removed.status now = .bad) :
      Settles s candidate now (.replacedBad removed) { s with buckets := pre ++
        { b with nodes := left ++ candidate :: right, lastChanged := now } :: post }
  | probeRequired {b : Bucket} (bucket : b ∈ s.buckets)
      (mem : b.range.contains candidate.id = true) (full : BUCKET_SIZE ≤ b.nodes.length)
      (noBad : ∀ c ∈ b.nodes, c.status now ≠ .bad) (some : incumbents b.nodes now ≠ []) :
      Settles s candidate now (.probeRequired (incumbents b.nodes now) candidate) s
  | rejectedFull {b : Bucket} (bucket : b ∈ s.buckets)
      (mem : b.range.contains candidate.id = true) (full : BUCKET_SIZE ≤ b.nodes.length)
      (good : ∀ c ∈ b.nodes, c.status now = .good)
      (final : ¬ (b.range.contains s.localId = true ∧ b.range.prefixLen < 160)) :
      Settles s candidate now .rejectedFull s

theorem status_good {c : NodeContact} {now : Instant} (hb : c.status now ≠ .bad)
    (hq : c.status now ≠ .questionable) : c.status now = .good := by
  cases h : c.status now <;> simp_all

theorem incumbents_eq_nil {nodes : List NodeContact} {now : Instant}
    (h : incumbents nodes now = []) : ∀ c ∈ nodes, c.status now ≠ .questionable := by
  intro c hc hq
  have : c ∈ incumbents nodes now := by
    rw [incumbents, List.mem_insertionSort, List.mem_filter]
    exact ⟨hc, by simp [hq]⟩
  rw [h] at this
  cases this

/-- **The insertion loop**: some splits, then one action on the bucket of the candidate. -/
theorem insertLoop_spec {candidate : NodeContact} {now : Instant} :
    ∀ fuel (t : RoutingTable) out t', t.Shape → insertLoop fuel t candidate now = some (out, t') →
      ∃ s, Refines t s ∧ Settles s candidate now out t'
  | 0, _, _, _, _, h => by cases h
  | fuel + 1, t, out, t', ht, h => by
    unfold insertLoop at h
    split at h
    · cases h
    rename_i index b hb
    obtain ⟨pre, post, hs, hi, hc, _⟩ := bucketOf_split hb
    have hmem : b ∈ t.buckets := by rw [hs]; simp
    split at h
    · rename_i hroom
      cases h
      rw [setBucket_split hs hi]
      exact ⟨t, .refl ht, .inserted hs hc hroom⟩
    rename_i hfull
    split at h
    · rename_i position hpos
      obtain ⟨hlt, hbad, _⟩ := List.findIdx?_eq_some_iff_getElem.1 hpos
      simp only [List.getElem?_eq_getElem hlt, Option.some.injEq, Prod.mk.injEq] at h
      obtain ⟨rfl, rfl⟩ := h
      rw [setBucket_split hs hi, List.set_eq_take_append_cons_drop, if_pos hlt]
      refine ⟨t, .refl ht, .replacedBad hs hc ?_ (by simpa using hbad)⟩
      rw [← List.drop_eq_getElem_cons hlt, List.take_append_drop]
    rename_i hnone
    have hnoBad : ∀ c ∈ b.nodes, c.status now ≠ .bad := by
      intro c hcm
      simpa using List.findIdx?_eq_none_iff.1 hnone c hcm
    split at h
    · rename_i hinc
      cases h
      exact ⟨t, .refl ht, .probeRequired hmem hc (by omega) hnoBad hinc⟩
    rename_i hinc
    have hgood : ∀ c ∈ b.nodes, c.status now = .good := fun c hcm =>
      status_good (hnoBad c hcm) (incumbents_eq_nil (by simpa using hinc) c hcm)
    split at h
    · -- a full bucket of good contacts around the local node is split and the loop continues
      rename_i hsplit
      simp only [Bool.and_eq_true, decide_eq_true_eq] at hsplit
      have href := splitBucket_refines ht hb hsplit.2 now
      obtain ⟨s, hs', hset⟩ := insertLoop_spec fuel _ out t' href.shape h
      exact ⟨s, href.trans hs', hset⟩
    · rename_i hsplit
      cases h
      exact ⟨t, .refl ht, .rejectedFull hmem hc (by omega) hgood (by simpa using hsplit)⟩

/-- Exactly one bucket contains an identifier, so `bucketOf` finds it. -/
theorem bucketOf_eq {t : RoutingTable} (h : t.Shape) {id : NodeId} {b : Bucket}
    (hb : b ∈ t.buckets) (hc : b.range.contains id = true) :
    ∃ index, t.bucketOf id = some (index, b) := by
  obtain ⟨index, b', hb'⟩ := bucketOf_isSome h id
  obtain ⟨pre, post, hs, _, hc', hpre⟩ := bucketOf_split hb'
  have hone := h.partition id
  rw [hs] at hb hone
  simp only [List.countP_append, List.countP_cons, hc', if_true] at hone
  rcases List.mem_append.1 hb with hb | hb
  · have := hpre b hb
    simp [hc] at this
  rcases List.mem_cons.1 hb with rfl | hb
  · exact ⟨index, hb'⟩
  · have : 0 < post.countP (fun b => b.range.contains id) := List.countP_pos_iff.2 ⟨b, hb, hc⟩
    omega

/-- The halves of a split are buckets of the new table. -/
theorem splitBucket_mem (t : RoutingTable) (index : Nat) (b : Bucket) (now : Instant) :
    (∃ l ∈ (t.splitBucket index b now).buckets, l.range = b.range.split.1) ∧
      ∃ r ∈ (t.splitBucket index b now).buckets, r.range = b.range.split.2 := by
  constructor
  · exact ⟨_, List.mem_append_right _ List.mem_cons_self, rfl⟩
  · exact ⟨_, List.mem_append_right _ (List.mem_cons_of_mem _ List.mem_cons_self), rfl⟩

/-- After a split the bucket of the candidate is one bit deeper. -/
theorem splitBucket_bucketOf {t : RoutingTable} {id : NodeId} {index : Nat} {b : Bucket}
    (h : t.Shape) (hb : t.bucketOf id = some (index, b)) (hlt : b.range.prefixLen < 160)
    (now : Instant) : ∃ i b', (t.splitBucket index b now).bucketOf id = some (i, b') ∧
      b'.range.prefixLen = b.range.prefixLen + 1 := by
  obtain ⟨pre, post, hs, _, hc, _⟩ := bucketOf_split hb
  have hcan := h.canonical b (by rw [hs]; simp)
  have href := splitBucket_refines h hb hlt now
  obtain ⟨⟨l, hl, hlr⟩, r, hr, hrr⟩ := splitBucket_mem t index b now
  cases hbit : bitValue id b.range.prefixLen with
  | false =>
    have hin : l.range.contains id = true := by
      rw [hlr, BucketPrefix.split_left_contains hcan hlt, hc, hbit]; rfl
    obtain ⟨i, hi⟩ := bucketOf_eq href.shape hl hin
    exact ⟨i, l, hi, by rw [hlr]; rfl⟩
  | true =>
    have hin : r.range.contains id = true := by
      rw [hrr, BucketPrefix.split_right_contains hlt, hc, hbit]; rfl
    obtain ⟨i, hi⟩ := bucketOf_eq href.shape hr hin
    exact ⟨i, r, hi, by rw [hrr]; rfl⟩

theorem insertLoop_some {candidate : NodeContact} {now : Instant} :
    ∀ fuel (t : RoutingTable) index b, t.Shape → t.bucketOf candidate.id = some (index, b) →
      160 - b.range.prefixLen < fuel → (insertLoop fuel t candidate now).isSome = true
  | 0, _, _, _, _, _, h => by omega
  | fuel + 1, t, index, b, ht, hb, hf => by
    unfold insertLoop
    rw [hb]
    simp only
    split
    · rfl
    split
    · rename_i position hpos
      obtain ⟨hlt, _⟩ := List.findIdx?_eq_some_iff_getElem.1 hpos
      rw [List.getElem?_eq_getElem hlt]
      rfl
    split
    · rfl
    split
    · rename_i hsplit
      simp only [Bool.and_eq_true, decide_eq_true_eq] at hsplit
      obtain ⟨i, b', hb', hlen⟩ := splitBucket_bucketOf ht hb hsplit.2 now
      exact insertLoop_some fuel _ i b' (splitBucket_refines ht hb hsplit.2 now).shape hb'
        (by omega)
    · rfl

/-- **`insert_verified` returns**: 161 iterations reach the deepest bucket. -/
theorem insertVerified_some {t : RoutingTable} (h : t.Shape) (candidate : NodeContact)
    (now : Instant) : (t.insertVerified candidate now).isSome = true := by
  obtain ⟨index, b, hb⟩ := bucketOf_isSome h candidate.id
  exact insertLoop_some 161 t index b h hb (by omega)

/-! ## Effects of one operation -/

/-- One bucket was rewritten in place: same range, same identifiers, addresses either kept or
accepted by the family. -/
def Edits (t t' : RoutingTable) : Prop :=
  ∃ pre b post b', t.buckets = pre ++ b :: post ∧ t' = { t with buckets := pre ++ b' :: post } ∧
    b'.range = b.range ∧ b'.nodes.map (·.id) = b.nodes.map (·.id) ∧
    ∀ c ∈ b'.nodes, (∃ a ∈ b.nodes, c.address = a.address) ∨ t.addressFamily.accepts c.address = true

theorem mem_contacts {t : RoutingTable} {c : NodeContact} :
    c ∈ t.contacts ↔ ∃ b ∈ t.buckets, c ∈ b.nodes := by
  simp [contacts]

theorem Edits.shape {t t' : RoutingTable} (h : t.Shape) (e : Edits t t') : t'.Shape := by
  obtain ⟨pre, b, post, b', hs, rfl, hr, hids, _⟩ := e
  have hb : b ∈ t.buckets := by rw [hs]; simp
  refine h.replace hs hr (fun c hc => ?_) ?_
  · have : c.id ∈ b.nodes.map (·.id) := by rw [← hids]; exact List.mem_map_of_mem hc
    obtain ⟨a, ha, hid⟩ := List.mem_map.1 this
    rw [← hid]
    exact h.placed b hb a ha
  · have := congrArg List.length hids
    simp only [List.length_map] at this
    rw [this]
    exact h.size_le b hb

theorem Edits.ids {t t' : RoutingTable} (e : Edits t t') :
    t'.contacts.map (·.id) = t.contacts.map (·.id) := by
  obtain ⟨pre, b, post, b', hs, rfl, _, hids, _⟩ := e
  rw [contacts_split hs, contacts_split (t := { t with buckets := pre ++ b' :: post }) rfl]
  simp [hids]

theorem Edits.admitted {t t' : RoutingTable} (h : t.Admitted) (e : Edits t t') : t'.Admitted := by
  have hids := e.ids
  obtain ⟨pre, b, post, b', hs, rfl, _, _, haddr⟩ := e
  intro c hc
  constructor
  · have : c.id ∈ t.contacts.map (·.id) := by rw [← hids]; exact List.mem_map_of_mem hc
    obtain ⟨a, ha, hid⟩ := List.mem_map.1 this
    rw [← hid]
    exact (h a ha).1
  · obtain ⟨x, hx, hcx⟩ := mem_contacts.1 hc
    have hold : x ∈ t.buckets → t.addressFamily.accepts c.address = true := fun hxt =>
      (h c (mem_contacts.2 ⟨x, hxt, hcx⟩)).2
    simp only [List.mem_append, List.mem_cons] at hx
    rcases hx with hx | rfl | hx
    · exact hold (by rw [hs]; simp [hx])
    · rcases haddr c hcx with ⟨a, ha, he⟩ | hacc
      · rw [he]
        exact (h a (mem_contacts.2 ⟨b, by rw [hs]; simp, ha⟩)).2
      · exact hacc
    · exact hold (by rw [hs]; simp [hx])

/-- Updating the first match of a bucket in place is an edit. -/
theorem edits_updateFirst {t : RoutingTable} {id : NodeId} {index : Nat} {b : Bucket}
    {p : NodeContact → Bool} {f : NodeContact → NodeContact} {nodes : List NodeContact}
    {changed : Instant} (hb : t.bucketOf id = some (index, b))
    (hu : updateFirst p f b.nodes = some nodes) (hid : ∀ c, (f c).id = c.id)
    (haddr : ∀ c, (f c).address = c.address ∨ t.addressFamily.accepts (f c).address = true) :
    Edits t (t.setBucket index { b with nodes := nodes, lastChanged := changed }) := by
  obtain ⟨pre, post, hs, hi, _, _⟩ := bucketOf_split hb
  obtain ⟨left, a, right, hn, rfl, _⟩ := updateFirst_some hu
  rw [setBucket_split hs hi]
  refine ⟨pre, b, post, _, hs, rfl, rfl, by simp [hn, hid], fun c hc => ?_⟩
  simp only [List.mem_append, List.mem_cons] at hc
  rcases hc with hc | rfl | hc
  · exact .inl ⟨c, by rw [hn]; simp [hc], rfl⟩
  · exact (haddr a).imp (fun h => ⟨a, by rw [hn]; simp, h⟩) (fun h => h)
  · exact .inl ⟨c, by rw [hn]; simp [hc], rfl⟩

theorem Settles.fields {s t' : RoutingTable} {c : NodeContact} {now : Instant}
    {out : InsertOutcome} (h : Settles s c now out t') :
    t'.localId = s.localId ∧ t'.addressFamily = s.addressFamily := by
  cases h <;> exact ⟨rfl, rfl⟩

theorem Settles.shape {s t' : RoutingTable} {c : NodeContact} {now : Instant}
    {out : InsertOutcome} (hs : s.Shape) (h : Settles s c now out t') : t'.Shape := by
  cases h with
  | @inserted pre post b split mem room =>
    have hb : b ∈ s.buckets := by rw [split]; simp
    refine hs.replace split rfl (fun x hx => ?_) ?_
    · rcases List.mem_append.1 hx with hx | hx
      · exact hs.placed b hb x hx
      · rw [List.mem_singleton.1 hx]; exact mem
    · rw [List.length_append, List.length_singleton]; omega
  | @replacedBad pre post b left right removed split mem nodes bad =>
    have hb : b ∈ s.buckets := by rw [split]; simp
    refine hs.replace split rfl (fun x hx => ?_) ?_
    · simp only [List.mem_append, List.mem_cons] at hx
      rcases hx with hx | rfl | hx
      · exact hs.placed b hb x (by rw [nodes]; simp [hx])
      · exact mem
      · exact hs.placed b hb x (by rw [nodes]; simp [hx])
    · have := hs.size_le b hb
      rw [nodes] at this
      simpa using this
  | probeRequired => exact hs
  | rejectedFull => exact hs

/-- The contacts after the candidate was appended to a bucket. -/
theorem contacts_inserted {s : RoutingTable} {pre post : List Bucket} {b b' : Bucket}
    {c : NodeContact} (split : s.buckets = pre ++ b :: post) (nodes : b'.nodes = b.nodes ++ [c]) :
    (contacts { s with buckets := pre ++ b' :: post }).Perm (c :: s.contacts) := by
  rw [contacts_split split, contacts_split (t := { s with buckets := _ }) rfl, nodes]
  simp only [List.append_assoc]
  have hmid : (b.nodes ++ c :: post.flatMap Bucket.nodes).Perm
      (c :: (b.nodes ++ post.flatMap Bucket.nodes)) := List.perm_middle
  refine (List.Perm.append_left _ hmid).trans ?_
  exact List.perm_middle

/-- The contacts after the candidate took the place of another one. -/
theorem contacts_replaced {s : RoutingTable} {pre post : List Bucket} {b b' : Bucket}
    {left right : List NodeContact} {c removed : NodeContact}
    (split : s.buckets = pre ++ b :: post) (old : b.nodes = left ++ removed :: right)
    (new : b'.nodes = left ++ c :: right) :
    (removed :: contacts { s with buckets := pre ++ b' :: post }).Perm (c :: s.contacts) := by
  rw [contacts_split split, contacts_split (t := { s with buckets := _ }) rfl, old, new]
  simp only [List.append_assoc, List.cons_append]
  have hswap : ∀ (x y : NodeContact) (p q : List NodeContact),
      (x :: (p ++ y :: q)).Perm (y :: (p ++ x :: q)) := fun x y p q =>
    (List.perm_middle.cons x).trans ((List.Perm.swap y x _).trans (List.perm_middle.symm.cons y))
  simpa only [List.append_assoc] using
    hswap removed c (pre.flatMap (·.nodes) ++ left) (right ++ post.flatMap (·.nodes))

/-- The contacts after an insertion: the candidate may come in, one bad contact may go out. -/
theorem Settles.contacts {s t' : RoutingTable} {c : NodeContact} {now : Instant}
    {out : InsertOutcome} (h : Settles s c now out t') :
    t'.contacts.Perm s.contacts ∨ t'.contacts.Perm (c :: s.contacts) ∨
      ∃ removed, removed.status now = .bad ∧ (removed :: t'.contacts).Perm (c :: s.contacts) := by
  cases h with
  | inserted split mem room => exact .inr (.inl (contacts_inserted split rfl))
  | @replacedBad pre post b left right removed split mem nodes bad =>
    exact .inr (.inr ⟨removed, bad, contacts_replaced split nodes rfl⟩)
  | probeRequired => exact .inl (.refl _)
  | rejectedFull => exact .inl (.refl _)

theorem Settles.admitted {s t' : RoutingTable} {c : NodeContact} {now : Instant}
    {out : InsertOutcome} (hs : s.Admitted) (hc : c.id ≠ s.localId)
    (ha : s.addressFamily.accepts c.address = true) (h : Settles s c now out t') :
    t'.Admitted := by
  obtain ⟨hl, hf⟩ := h.fields
  have hmem : ∀ x ∈ t'.contacts, x = c ∨ x ∈ s.contacts := by
    intro x hx
    rcases h.contacts with hp | hp | ⟨removed, _, hp⟩
    · exact .inr (hp.mem_iff.1 hx)
    · exact List.mem_cons.1 (hp.mem_iff.1 hx)
    · exact List.mem_cons.1 (hp.mem_iff.1 (List.mem_cons_of_mem _ hx))
  intro x hx
  rw [hl, hf]
  rcases hmem x hx with rfl | hx
  · exact ⟨hc, ha⟩
  · exact hs x hx

theorem Settles.distinct {s t' : RoutingTable} {c : NodeContact} {now : Instant}
    {out : InsertOutcome} (hs : s.Distinct) (hc : ∀ x ∈ s.contacts, x.id ≠ c.id)
    (h : Settles s c now out t') : t'.Distinct := by
  have hnew : ((c :: s.contacts).map (·.id)).Nodup := by
    rw [List.map_cons, List.nodup_cons]
    refine ⟨fun hm => ?_, hs⟩
    obtain ⟨x, hx, he⟩ := List.mem_map.1 hm
    exact hc x hx he
  rcases h.contacts with hp | hp | ⟨removed, _, hp⟩
  · exact (hp.map _).nodup_iff.2 hs
  · exact (hp.map _).nodup_iff.2 hnew
  · have := (hp.map (·.id)).nodup_iff.2 hnew
    rw [List.map_cons, List.nodup_cons] at this
    exact this.2

theorem Refines.admitted {t s : RoutingTable} (r : Refines t s) (h : t.Admitted) : s.Admitted := by
  intro c hc
  rw [r.localId, r.family]
  exact h c (r.contacts.mem_iff.1 hc)

theorem Refines.distinct {t s : RoutingTable} (r : Refines t s) (h : t.Distinct) : s.Distinct :=
  (r.contacts.map _).nodup_iff.2 h

/-- The lookup of an identifier misses exactly when no contact carries it. -/
theorem contact_eq_none {t : RoutingTable} (h : t.Shape) {id : NodeId} :
    t.contact id = none ↔ ∀ c ∈ t.contacts, c.id ≠ id := by
  obtain ⟨index, b, hb⟩ := bucketOf_isSome h id
  obtain ⟨pre, post, hs, _, hc, _⟩ := bucketOf_split hb
  have hbm : b ∈ t.buckets := by rw [hs]; simp
  simp only [contact, hb, Option.bind_eq_bind, Option.bind_some, List.find?_eq_none, beq_iff_eq]
  constructor
  · intro hn c hcm he
    obtain ⟨x, hx, hcx⟩ := mem_contacts.1 hcm
    -- a contact with this identifier can only sit in the bucket that was searched
    obtain ⟨i, hi⟩ := bucketOf_eq h hx (h.placed x hx c hcx)
    rw [he, hb] at hi
    cases hi
    exact hn c hcx he
  · intro hn c hcx he
    exact hn c (mem_contacts.2 ⟨b, hbm, hcx⟩) he

end RoutingTable

end BtSniffer
