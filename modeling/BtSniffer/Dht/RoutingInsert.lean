import BtSniffer.Dht.RoutingRun

/-!
# Insertion into the routing table

What each outcome of `insert_verified` says about the table before and after.

* `Spine` — the number of buckets is the depth of the local bucket plus one: only the local bucket is
  ever split.
* `Settles.change` — the contacts after each outcome.
* `insertion` — the outcomes of `insert_verified`, what they keep, and the number of buckets in every
  run.
-/

set_option autoImplicit false

namespace BtSniffer

namespace RoutingTable

variable {t t' s : RoutingTable} {candidate : NodeContact} {now : Instant} {out : InsertOutcome}

/-! ## Splits -/

/-- The prefixes of the buckets, in their order. -/
def ranges (t : RoutingTable) : List BucketPrefix := t.buckets.map Bucket.range

/-- A bucket that does not contain the local identifier keeps its prefix. -/
def KeepsOthers (t t' : RoutingTable) : Prop :=
  ∀ r ∈ t.ranges, r.contains t.localId = false → r ∈ t'.ranges

/-- There are as many buckets as bits in the prefix of the local bucket, and one more. -/
def Spine (t : RoutingTable) : Prop :=
  ∀ r ∈ t.ranges, r.contains t.localId = true → t.ranges.length = r.prefixLen + 1

theorem new_spine (localId : NodeId) (family : AddressFamily) (start : Instant) :
    Spine (new localId family start) := by
  intro r hr _
  obtain rfl : r = BucketPrefix.root := by simpa [ranges, new, Bucket.new] using hr
  rfl

/-- The prefixes after a split. -/
theorem splitBucket_ranges {pre post : List Bucket} {b : Bucket}
    (hs : t.buckets = pre ++ b :: post) :
    (t.splitBucket pre.length b now).ranges = pre.map Bucket.range ++
      b.range.split.1 :: b.range.split.2 :: post.map Bucket.range := by
  have htake : t.buckets.take pre.length = pre := by rw [hs]; simp
  have hdrop : t.buckets.drop (pre.length + 1) = post := by rw [hs]; simp
  simp [ranges, splitBucket, htake, hdrop, Bucket.new]

theorem ranges_split {pre post : List Bucket} {b : Bucket} (hs : t.buckets = pre ++ b :: post) :
    t.ranges = pre.map Bucket.range ++ b.range :: post.map Bucket.range := by
  simp [ranges, hs]

/-- Only one prefix contains the local identifier. -/
theorem Shape.local_unique (h : t.Shape) :
    t.ranges.countP (fun r => r.contains t.localId) = 1 := by
  rw [ranges, List.countP_map]
  exact h.partition t.localId

/-- **A split of the local bucket keeps the other buckets and the spine.** -/
theorem splitBucket_spine {index : Nat} {b : Bucket} {id : NodeId} (h : t.Shape)
    (hb : t.bucketOf id = some (index, b)) (hlocal : b.range.contains t.localId = true)
    (hlt : b.range.prefixLen < 160) :
    KeepsOthers t (t.splitBucket index b now) ∧
      (t.Spine → (t.splitBucket index b now).Spine) := by
  have hshape := (splitBucket_refines h hb hlt now).shape
  obtain ⟨pre, post, hs, rfl, -, -⟩ := bucketOf_split hb
  have hold := ranges_split hs
  have hnew := @splitBucket_ranges t now _ _ _ hs
  constructor
  · intro r hr hother
    rw [hold] at hr
    rw [hnew]
    rcases List.mem_append.1 hr with hr | hr
    · exact List.mem_append_left _ hr
    · rcases List.mem_cons.1 hr with rfl | hr
      · rw [hlocal] at hother
        cases hother
      · exact List.mem_append_right _ (List.mem_cons_of_mem _ (List.mem_cons_of_mem _ hr))
  · intro hspine r hr hcontains
    have hdepth : t.ranges.length = b.range.prefixLen + 1 :=
      hspine b.range (by rw [hold]; simp) hlocal
    have hlength : (t.splitBucket pre.length b now).ranges.length = t.ranges.length + 1 := by
      rw [hold, hnew]
      simp only [List.length_append, List.length_cons]
      omega
    -- one half contains the local identifier, so no other bucket does
    have hcan := h.canonical b (by rw [hs]; simp)
    have hone := hshape.local_unique
    have hL := BucketPrefix.split_left_contains hcan hlt t.localId
    have hR := BucketPrefix.split_right_contains hlt t.localId
    rw [hlocal] at hL hR
    rw [hnew] at hone hr
    have hlocalId : (t.splitBucket pre.length b now).localId = t.localId := rfl
    rw [hlocalId] at hone hcontains
    simp only [List.countP_append, List.countP_cons, hL, hR] at hone
    have hzero : (pre.map Bucket.range).countP (fun r => r.contains t.localId) = 0 ∧
        (post.map Bucket.range).countP (fun r => r.contains t.localId) = 0 := by
      generalize (pre.map Bucket.range).countP (fun r => r.contains t.localId) = m at hone ⊢
      generalize (post.map Bucket.range).countP (fun r => r.contains t.localId) = n at hone ⊢
      generalize bitValue t.localId b.range.prefixLen = bit at hone
      cases bit <;> simp at hone <;> omega
    have hrest : ∀ l : List BucketPrefix, r ∈ l →
        0 < l.countP (fun r => r.contains t.localId) :=
      fun l hl => List.countP_pos_iff.2 ⟨r, hl, hcontains⟩
    rcases List.mem_append.1 hr with hr | hr
    · have hpos := hrest _ hr
      omega
    rcases List.mem_cons.1 hr with rfl | hr
    · rw [hlength, hdepth]
      rfl
    rcases List.mem_cons.1 hr with rfl | hr
    · rw [hlength, hdepth]
      rfl
    · have hpos := hrest _ hr
      omega

theorem KeepsOthers.trans {t₁ t₂ t₃ : RoutingTable} (h : KeepsOthers t₁ t₂)
    (h' : KeepsOthers t₂ t₃) (hlocal : t₂.localId = t₁.localId) : KeepsOthers t₁ t₃ := by
  intro r hr hother
  refine h' r (h r hr hother) ?_
  rw [hlocal]
  exact hother

theorem KeepsOthers.of_ranges (h : t'.ranges = t.ranges) : KeepsOthers t t' := by
  intro r hr _
  rw [h]
  exact hr

theorem Spine.of_ranges (hs : t.Spine) (h : t'.ranges = t.ranges)
    (hlocal : t'.localId = t.localId) : t'.Spine := by
  unfold Spine at hs ⊢
  rw [h, hlocal]
  exact hs

/-- The prefixes stay when the content of one bucket is replaced. -/
theorem ranges_replace {pre post : List Bucket} {b b' : Bucket} (hs : t.buckets = pre ++ b :: post)
    (hr : b'.range = b.range) : ranges { t with buckets := pre ++ b' :: post } = t.ranges := by
  simp [ranges, hs, hr]

theorem Settles.ranges (h : Settles s candidate now out t') : t'.ranges = s.ranges := by
  cases h with
  | inserted split mem room => exact ranges_replace split rfl
  | replacedBad split mem nodes bad => exact ranges_replace split rfl
  | probeRequired => rfl
  | rejectedFull => rfl

/-- **The insertion loop splits the local bucket only.** -/
theorem insertLoop_spine : ∀ fuel (t : RoutingTable) out t', t.Shape →
    insertLoop fuel t candidate now = some (out, t') →
      KeepsOthers t t' ∧ (t.Spine → t'.Spine)
  | 0, _, _, _, _, h => by cases h
  | fuel + 1, t, out, t', ht, h => by
    unfold insertLoop at h
    split at h
    · cases h
    rename_i index b hb
    obtain ⟨pre, post, hs, hi, -, -⟩ := bucketOf_split hb
    have hkeep : ∀ b' : Bucket, b'.range = b.range → KeepsOthers t (t.setBucket index b') ∧
        (t.Spine → (t.setBucket index b').Spine) := by
      intro b' hr
      rw [setBucket_split hs hi]
      have hranges := ranges_replace hs hr
      exact ⟨.of_ranges hranges, fun hspine => hspine.of_ranges hranges rfl⟩
    split at h
    · cases h
      exact hkeep _ rfl
    split at h
    · split at h
      · cases h
      · cases h
        exact hkeep _ rfl
    split at h
    · cases h
      exact ⟨.of_ranges rfl, fun hspine => hspine⟩
    split at h
    · rename_i hsplit
      simp only [Bool.and_eq_true, decide_eq_true_eq] at hsplit
      have hshape := (splitBucket_refines ht hb hsplit.2 now).shape
      obtain ⟨hothers, hspine⟩ := @splitBucket_spine t now _ _ _ ht hb hsplit.1 hsplit.2
      obtain ⟨hothers', hspine'⟩ := insertLoop_spine fuel _ out t' hshape h
      exact ⟨hothers.trans hothers' rfl, hspine' ∘ hspine⟩
    · cases h
      exact ⟨.of_ranges rfl, fun hspine => hspine⟩

/-! ## Outcomes -/

/-- What an outcome says: the contacts, and the bucket of the candidate in the table after it. -/
inductive Change (t t' : RoutingTable) (candidate : NodeContact) (now : Instant) :
    InsertOutcome → Prop
  | inserted (contacts : t'.contacts.Perm (candidate :: t.contacts)) :
      Change t t' candidate now .inserted
  | replacedBad {removed : NodeContact}
      (contacts : (removed :: t'.contacts).Perm (candidate :: t.contacts))
      (mem : removed ∈ t.contacts) (failed : 2 ≤ removed.consecutiveFailures) :
      Change t t' candidate now (.replacedBad removed)
  | probeRequired {index : Nat} {b : Bucket} {incumbents : List NodeContact}
      (contacts : t'.contacts.Perm t.contacts) (bucket : t'.bucketOf candidate.id = some (index, b))
      (full : b.nodes.length = 8) (noBad : ∀ c ∈ b.nodes, c.status now ≠ .bad)
      (some : incumbents ≠ [])
      (questionable : incumbents.Perm (b.nodes.filter (fun c => c.status now == .questionable)))
      (ordered : incumbents.Pairwise (fun a b => a.lastActivity ≤ b.lastActivity)) :
      Change t t' candidate now (.probeRequired incumbents candidate)
  | rejectedFull {index : Nat} {b : Bucket} (contacts : t'.contacts.Perm t.contacts)
      (bucket : t'.bucketOf candidate.id = some (index, b)) (full : b.nodes.length = 8)
      (good : ∀ c ∈ b.nodes, c.status now = .good)
      (final : b.range.contains t.localId = false ∨ b.range.prefixLen = 160) :
      Change t t' candidate now .rejectedFull

theorem incumbents_pairwise (nodes : List NodeContact) (now : Instant) :
    (incumbents nodes now).Pairwise (fun a b => a.lastActivity ≤ b.lastActivity) := by
  have htotal : ∀ a b : NodeContact, a.lastActivity ≤ b.lastActivity ∨
      b.lastActivity ≤ a.lastActivity := fun a b => Nat.le_total _ _
  have htrans : ∀ a b c : NodeContact, a.lastActivity ≤ b.lastActivity →
      b.lastActivity ≤ c.lastActivity → a.lastActivity ≤ c.lastActivity :=
    fun a b c => Nat.le_trans
  exact @List.pairwise_insertionSort _ _ _ ⟨htotal⟩ ⟨htrans⟩ _

theorem failures_of_bad {c : NodeContact} (h : c.status now = .bad) : 2 ≤ c.consecutiveFailures := by
  unfold NodeContact.status at h
  split at h
  · assumption
  · simp only at h
    split at h <;> cases h

/-- **The contacts after each outcome.** -/
theorem Settles.change (hr : Refines t s) (h : Settles s candidate now out t') :
    Change t t' candidate now out := by
  have hsize : ∀ b ∈ s.buckets, BUCKET_SIZE ≤ b.nodes.length → b.nodes.length = 8 :=
    fun b hb hfull => Nat.le_antisymm (hr.shape.size_le b hb) hfull
  cases h with
  | inserted split mem room =>
    exact .inserted ((contacts_inserted split rfl).trans (hr.contacts.cons candidate))
  | @replacedBad pre post b left right removed split mem nodes bad =>
    refine .replacedBad ?_ ?_ (failures_of_bad bad)
    · exact (contacts_replaced split nodes rfl).trans (hr.contacts.cons candidate)
    · refine hr.contacts.mem_iff.1 (mem_contacts.2 ⟨b, ?_, ?_⟩)
      · rw [split]
        simp
      · rw [nodes]
        simp
  | @probeRequired b bucket mem full noBad some =>
    obtain ⟨index, hindex⟩ := bucketOf_eq hr.shape bucket mem
    exact .probeRequired hr.contacts hindex (hsize b bucket full) noBad some
      (List.perm_insertionSort _ _) (incumbents_pairwise b.nodes now)
  | @rejectedFull b bucket mem full good final =>
    obtain ⟨index, hindex⟩ := bucketOf_eq hr.shape bucket mem
    refine .rejectedFull hr.contacts hindex (hsize b bucket full) good ?_
    rw [hr.localId] at final
    have hlen := (hr.shape.canonical b bucket).len_le
    cases hlocal : b.range.contains t.localId with
    | false => exact .inl rfl
    | true => exact .inr (by
        have hdeep : ¬ b.range.prefixLen < 160 := fun hlt => final ⟨hlocal, hlt⟩
        omega)

/-- **A good contact stays.** -/
theorem Change.keeps_good (h : Change t t' candidate now out) {c : NodeContact}
    (hc : c ∈ t.contacts) (hgood : c.status now = .good) : c ∈ t'.contacts := by
  cases h with
  | inserted contacts => exact contacts.mem_iff.2 (List.mem_cons_of_mem _ hc)
  | @replacedBad removed contacts mem failed =>
    have hmem := contacts.mem_iff.2 (List.mem_cons_of_mem _ hc)
    rcases List.mem_cons.1 hmem with rfl | hmem
    · have hbad : c.status now = .bad := if_pos failed
      rw [hgood] at hbad
      cases hbad
    · exact hmem
  | probeRequired contacts => exact contacts.mem_iff.2 hc
  | rejectedFull contacts => exact contacts.mem_iff.2 hc

/-! ## Runs -/

theorem apply_spine {op : Op} {issued : List NodeContact} (ht : t.Shape) (hspine : t.Spine)
    (h : t.apply op now = some (issued, t')) : t'.Spine := by
  rcases apply_calls ht h with ⟨rfl, -⟩ | ⟨⟨pre, b, post, b', hs, rfl, hr, -⟩, -⟩ |
    ⟨c, out, -, hins, -⟩
  · exact hspine
  · exact hspine.of_ranges (ranges_replace hs hr) rfl
  · exact (insertLoop_spine _ _ _ _ ht hins).2 hspine

theorem Run.spine {guard : RoutingTable → Op → Prop} {localId : NodeId} {family : AddressFamily}
    {start : Instant} {h : History} (r : Run guard localId family start h) : h.table.Spine := by
  induction r with
  | new => exact new_spine _ _ _
  | step prev _ _ _ eq ih => exact apply_spine prev.shape ih eq

/-- The local bucket is at most 160 bits deep. -/
theorem Spine.length_le (h : t.Shape) (hspine : t.Spine) : t.buckets.length ≤ 161 := by
  obtain ⟨index, b, hb⟩ := bucketOf_isSome h t.localId
  obtain ⟨pre, post, hs, -, hlocal, -⟩ := bucketOf_split hb
  have hmem : b ∈ t.buckets := by
    rw [hs]
    simp
  have hlen := hspine b.range (List.mem_map_of_mem hmem) hlocal
  have hdeep := (h.canonical b hmem).len_le
  rw [ranges, List.length_map] at hlen
  omega

/-- **`insert_verified`**: it returns, splits the local bucket only, changes the contacts as its
outcome says and keeps every good contact; no run has more than 161 buckets. -/
theorem insertion (t : RoutingTable) (h : t.Shape) (candidate : NodeContact) (now : Instant) :
    (∃ out t', t.insertVerified candidate now = some (out, t') ∧ KeepsOthers t t' ∧
      Change t t' candidate now out ∧
      ∀ c ∈ t.contacts, c.status now = .good → c ∈ t'.contacts) ∧
    ∀ localId family start hist, Run (fun _ _ => True) localId family start hist →
      hist.table.buckets.length ≤ 161 := by
  constructor
  · obtain ⟨⟨out, t'⟩, hins⟩ := Option.isSome_iff_exists.1 (insertVerified_some h candidate now)
    obtain ⟨s, hr, hset⟩ := insertLoop_spec _ _ _ _ h hins
    have hchange := hset.change hr
    exact ⟨out, t', hins, (insertLoop_spine _ _ _ _ h hins).1, hchange,
      fun c hc hgood => hchange.keeps_good hc hgood⟩
  · intro localId family start hist r
    exact Spine.length_le r.shape r.spine

/-- Eight nodes answer at the same time. -/
def eightGood : List (Op × Instant) := (List.range 8).map (fun n => (sampleNode (n + 1), 0))

/-- A ninth node splits the full bucket of good contacts until it finds room. -/
theorem insertion_ninth :
    ∃ hist, Run (fun _ _ => True) 0 .ipv4 0 hist ∧ hist.table.contacts.length = 8 ∧
      ∃ out t', hist.table.insertVerified (.verified 9 (.v4 9 6881) 0) 0 = some (out, t') ∧
        KeepsOthers hist.table t' ∧ Change hist.table t' (.verified 9 (.v4 9 6881) 0) 0 out := by
  have hrun : ((replay (fun _ _ => True) ⟨new 0 .ipv4 0, [], 0⟩ eightGood).any (fun hist =>
      decide (hist.table.contacts.length = 8))) = true := by
    decide +kernel
  obtain ⟨hist, hreplay, hlen⟩ := (Option.any_eq_true _ _).1 hrun
  have r : Run (fun _ _ => True) 0 .ipv4 0 hist := replay_run .new hreplay
  obtain ⟨out, t', hins, hothers, hchange, -⟩ :=
    (insertion hist.table r.shape (.verified 9 (.v4 9 6881) 0) 0).1
  exact ⟨hist, r, of_decide_eq_true hlen, out, t', hins, hothers, hchange⟩

end RoutingTable

end BtSniffer
