import BtSniffer.Dht.RoutingRun
import Mathlib.Data.List.MinMax

/-!
# Refreshing buckets

Reference model of the refresh schedule of `src/dht/routing/mod.rs`.

* `randomTarget_contains` — the target lies in the bucket it was made for.
* `staleRefreshTarget_spec` — the bucket of the target is stale and has the earliest deadline.
* `markRefreshed_spec` — the bucket that contains the target is marked, the others stay.
* `refresh_schedule` — a target is found exactly when a deadline has passed, and refreshing at one
  time comes to an end with every bucket refreshed.
-/

set_option autoImplicit false

namespace BtSniffer

/-- `BucketPrefix::random_target`. -/
def BucketPrefix.randomTarget (r : BucketPrefix) (random : NodeId) : NodeId :=
  (List.range r.prefixLen).foldl (fun target bit => setBit target bit (bitValue r.bits bit)) random

/-- `Bucket::maintenance_base`. -/
def Bucket.maintenanceBase (b : Bucket) : Instant :=
  b.lastRefresh.elim b.lastChanged (fun refresh => max b.lastChanged refresh)

/-- The maintenance deadline of a bucket. -/
def Bucket.deadline (refreshAfter : Duration) (b : Bucket) : Instant :=
  b.maintenanceBase + refreshAfter

namespace RoutingTable

/-- `is_empty`. -/
def isEmpty (t : RoutingTable) : Bool := t.buckets.all (fun b => b.nodes.isEmpty)

/-- `next_refresh_deadline`. -/
def nextRefreshDeadline (t : RoutingTable) (refreshAfter : Duration) : Option Instant :=
  if t.isEmpty then none else (t.buckets.map (Bucket.deadline refreshAfter)).min?

/-- The buckets whose deadline has passed. -/
def stale (t : RoutingTable) (now : Instant) (refreshAfter : Duration) : List Bucket :=
  t.buckets.filter (fun b => decide (now ≥ b.deadline refreshAfter))

/-- `stale_refresh_target`; of several buckets with the earliest base the first is chosen. -/
def staleRefreshTarget (t : RoutingTable) (now : Instant) (refreshAfter : Duration)
    (random : NodeId) : Option NodeId :=
  if t.isEmpty then none
  else ((t.stale now refreshAfter).argmin Bucket.maintenanceBase).map
    (fun b => b.range.randomTarget random)

end RoutingTable

/-! ## Targets -/

namespace BucketPrefix

/-- The bits that were set are those of the prefix, the others stay. -/
theorem fold_setBit (bits : NodeId) : ∀ (n : Nat) (random : NodeId), n ≤ 160 →
    ∀ bit < n, bitValue ((List.range n).foldl
      (fun target bit => setBit target bit (bitValue bits bit)) random) bit = bitValue bits bit
  | 0, _, _, bit, hbit => absurd hbit (Nat.not_lt_zero bit)
  | n + 1, random, hn, bit, hbit => by
    rw [List.range_succ, List.foldl_append, List.foldl_cons, List.foldl_nil]
    rw [bitValue_setBit (by omega) (by omega)]
    split
    · rename_i heq
      rw [heq]
    · exact fold_setBit bits n random (by omega) bit (by omega)

/-- **The target lies in its bucket.** -/
theorem randomTarget_contains {r : BucketPrefix} (hr : r.Canonical) (random : NodeId) :
    r.contains (r.randomTarget random) = true := by
  rw [contains_iff]
  intro bit hbit
  exact (fold_setBit r.bits r.prefixLen random hr.len_le bit hbit).symm

end BucketPrefix

namespace RoutingTable

variable {t t' : RoutingTable} {now : Instant} {refreshAfter : Duration} {random target : NodeId}

/-- **The target is in a stale bucket with the earliest deadline.** -/
theorem staleRefreshTarget_spec (h : t.Shape)
    (hs : t.staleRefreshTarget now refreshAfter random = some target) :
    ∃ b ∈ t.buckets, b.range.contains target = true ∧ b.deadline refreshAfter ≤ now ∧
      ∀ b' ∈ t.buckets, b.deadline refreshAfter ≤ b'.deadline refreshAfter := by
  unfold staleRefreshTarget at hs
  split at hs
  · cases hs
  · obtain ⟨b, hb, rfl⟩ := Option.map_eq_some_iff.1 hs
    have hmem := List.argmin_mem hb
    obtain ⟨hbucket, hdue⟩ := List.mem_filter.1 hmem
    have hdue' : b.deadline refreshAfter ≤ now := of_decide_eq_true hdue
    refine ⟨b, hbucket, BucketPrefix.randomTarget_contains (h.canonical b hbucket) random, hdue',
      ?_⟩
    intro b' hb'
    by_cases hlate : b'.deadline refreshAfter ≤ now
    · have hmem' : b' ∈ t.stale now refreshAfter :=
        List.mem_filter.2 ⟨hb', decide_eq_true hlate⟩
      have hle : b.maintenanceBase ≤ b'.maintenanceBase := List.le_of_mem_argmin hmem' hb
      exact Nat.add_le_add_right hle refreshAfter
    · exact hdue'.trans (Nat.le_of_lt (Nat.lt_of_not_le hlate))

/-- A target is found exactly when some bucket is stale. -/
theorem staleRefreshTarget_isSome :
    (t.staleRefreshTarget now refreshAfter random).isSome = true ↔
      t.isEmpty = false ∧ ∃ b ∈ t.buckets, b.deadline refreshAfter ≤ now := by
  unfold staleRefreshTarget
  cases t.isEmpty with
  | true => simp
  | false =>
    simp only [Bool.false_eq_true, if_false, Option.isSome_map, true_and]
    rw [Option.isSome_iff_ne_none, ne_eq, List.argmin_eq_none, stale, List.filter_eq_nil_iff]
    simp

/-- The earliest deadline has passed exactly when some bucket is stale. -/
theorem nextRefreshDeadline_le :
    (∃ d, t.nextRefreshDeadline refreshAfter = some d ∧ d ≤ now) ↔
      t.isEmpty = false ∧ ∃ b ∈ t.buckets, b.deadline refreshAfter ≤ now := by
  unfold nextRefreshDeadline
  cases t.isEmpty with
  | true => simp
  | false =>
    simp only [Bool.false_eq_true, if_false, true_and]
    constructor
    · rintro ⟨d, hd, hle⟩
      obtain ⟨b, hb, rfl⟩ := List.mem_map.1 (List.min?_mem hd)
      exact ⟨b, hb, hle⟩
    · rintro ⟨b, hb, hle⟩
      have hmem : b.deadline refreshAfter ∈ t.buckets.map (Bucket.deadline refreshAfter) :=
        List.mem_map_of_mem hb
      cases hd : (t.buckets.map (Bucket.deadline refreshAfter)).min? with
      | none =>
        rw [List.min?_eq_none_iff] at hd
        rw [hd] at hmem
        cases hmem
      | some d => exact ⟨d, rfl, ((List.min?_eq_some_iff.1 hd).2 _ hmem).trans hle⟩

/-! ## Marks -/

/-- The bucket of a target is marked at the time `now`. -/
def Marks (t t' : RoutingTable) (target : NodeId) (now : Instant) : Prop :=
  ∃ pre b post, t.buckets = pre ++ b :: post ∧ b.range.contains target = true ∧
    t' = { t with buckets := pre ++ { b with lastRefresh := some now } :: post }

/-- **`mark_refreshed` marks the bucket that contains the target, and no other.** -/
theorem markRefreshed_spec (h : t.Shape) (target : NodeId) (now : Instant) :
    ∃ t', t.markRefreshed target now = some t' ∧ Marks t t' target now := by
  obtain ⟨index, b, hb⟩ := bucketOf_isSome h target
  obtain ⟨pre, post, hs, hi, hcontains, -⟩ := bucketOf_split hb
  refine ⟨_, by unfold markRefreshed; rw [hb], pre, b, post, hs, hcontains, ?_⟩
  exact setBucket_split hs hi

theorem deadline_marked (b : Bucket) (now : Instant) (refreshAfter : Duration) :
    now + refreshAfter ≤ ({ b with lastRefresh := some now } : Bucket).deadline refreshAfter := by
  have hle : now ≤ max b.lastChanged now := le_max_right _ _
  exact Nat.add_le_add_right hle refreshAfter

theorem Marks.shape (h : t.Shape) (hm : Marks t t' target now) : t'.Shape := by
  obtain ⟨pre, b, post, hs, -, rfl⟩ := hm
  have hb : b ∈ t.buckets := by
    rw [hs]
    simp
  exact h.replace hs rfl (h.placed b hb) (h.size_le b hb)

/-- Only the bucket of the target can become less stale. -/
theorem Marks.count (hm : Marks t t' target now) (hpos : 0 < refreshAfter)
    (hdue : ∀ b ∈ t.buckets, b.range.contains target = true → b.deadline refreshAfter ≤ now) :
    (t'.stale now refreshAfter).length + 1 = (t.stale now refreshAfter).length ∧
      t'.buckets.length = t.buckets.length := by
  obtain ⟨pre, b, post, hs, hcontains, rfl⟩ := hm
  have hold : decide (now ≥ b.deadline refreshAfter) = true :=
    decide_eq_true (hdue b (by rw [hs]; simp) hcontains)
  have hnew : decide (now ≥ ({ b with lastRefresh := some now } : Bucket).deadline refreshAfter) =
      false := by
    have hle := deadline_marked b now refreshAfter
    rw [decide_eq_false_iff_not]
    unfold Duration Instant at *
    omega
  simp only [stale, hs, List.filter_append, List.filter_cons, hold, hnew, if_true,
    List.length_append, List.length_cons]
  simp
  omega

/-! ## Refreshing at one time -/

/-- `stale_refresh_target` followed by `mark_refreshed`, at most `steps` times. -/
def refreshLoop (now : Instant) (refreshAfter : Duration) (random : Nat → NodeId) :
    Nat → RoutingTable → RoutingTable
  | 0, t => t
  | steps + 1, t =>
    match t.staleRefreshTarget now refreshAfter (random steps) with
    | none => t
    | some target => refreshLoop now refreshAfter random steps ((t.markRefreshed target now).getD t)

/-- The bucket of a target that was just chosen is stale. -/
theorem stale_of_target (h : t.Shape)
    (hs : t.staleRefreshTarget now refreshAfter random = some target) :
    ∀ b ∈ t.buckets, b.range.contains target = true → b.deadline refreshAfter ≤ now := by
  obtain ⟨b, hb, hcontains, hdue, -⟩ := staleRefreshTarget_spec h hs
  intro b' hb' hcontains'
  obtain ⟨i, hi⟩ := bucketOf_eq h hb hcontains
  obtain ⟨i', hi'⟩ := bucketOf_eq h hb' hcontains'
  rw [hi] at hi'
  cases hi'
  exact hdue

theorem staleRefreshTarget_none_of_stale (hs : t.stale now refreshAfter = []) :
    t.staleRefreshTarget now refreshAfter random = none := by
  unfold staleRefreshTarget
  rw [hs]
  split <;> rfl

/-- **Refreshing ends**: each step leaves one bucket less to refresh. -/
theorem refreshLoop_ends (hpos : 0 < refreshAfter) (randoms : Nat → NodeId) (r : NodeId) :
    ∀ (steps : Nat) (t : RoutingTable), t.Shape → (t.stale now refreshAfter).length ≤ steps →
      (refreshLoop now refreshAfter randoms steps t).staleRefreshTarget now refreshAfter r = none
  | 0, t, _, hlen => by
    rw [refreshLoop]
    exact staleRefreshTarget_none_of_stale (List.length_eq_zero_iff.1 (Nat.le_zero.1 hlen))
  | steps + 1, t, h, hlen => by
    rw [refreshLoop]
    cases hs : t.staleRefreshTarget now refreshAfter (randoms steps) with
    | none =>
      -- no target for one random value means no target for any
      have hnot := (@staleRefreshTarget_isSome t now refreshAfter (randoms steps)).not
      rw [hs] at hnot
      have hnone := (@staleRefreshTarget_isSome t now refreshAfter r).not.2 (hnot.1 (by simp))
      simpa using hnone
    | some target =>
      obtain ⟨t', ht', hm⟩ := markRefreshed_spec h target now
      have hcount := (hm.count hpos (stale_of_target h hs)).1
      simp only [ht', Option.getD_some]
      exact refreshLoop_ends hpos randoms r steps t' (hm.shape h) (by omega)

/-- **The refresh schedule.** In every reachable table a target is found exactly when the next
deadline has passed; it lies in a bucket with the earliest deadline; when the lookup ends, the bucket
that then contains the target is marked; and refreshing at one time ends after at most one step for
each bucket. -/
theorem refresh_schedule {localId : NodeId} {family : AddressFamily} {start : Instant}
    {hist : History} (run : Run (fun _ _ => True) localId family start hist)
    (refreshAfter : Duration) (hpos : 0 < refreshAfter) (now : Instant) :
    (∀ random, (hist.table.staleRefreshTarget now refreshAfter random).isSome = true ↔
      ∃ d, hist.table.nextRefreshDeadline refreshAfter = some d ∧ d ≤ now) ∧
    (∀ random target, hist.table.staleRefreshTarget now refreshAfter random = some target →
      ∃ b ∈ hist.table.buckets, b.range.contains target = true ∧
        ∀ b' ∈ hist.table.buckets, b.deadline refreshAfter ≤ b'.deadline refreshAfter) ∧
    (∀ target, ∃ pre b post, hist.table.buckets = pre ++ b :: post ∧
      b.range.contains target = true ∧
      hist.table.markRefreshed target now = some { hist.table with
        buckets := pre ++ { b with lastRefresh := some now } :: post } ∧
      now + refreshAfter ≤
        ({ b with lastRefresh := some now } : Bucket).deadline refreshAfter) ∧
    ∀ randoms r, (refreshLoop now refreshAfter randoms hist.table.buckets.length
      hist.table).staleRefreshTarget now refreshAfter r = none := by
  have h := run.shape
  refine ⟨?_, ?_, ?_, ?_⟩
  · intro random
    rw [staleRefreshTarget_isSome, nextRefreshDeadline_le]
  · intro random target hs
    obtain ⟨b, hb, hcontains, -, hmin⟩ := staleRefreshTarget_spec h hs
    exact ⟨b, hb, hcontains, hmin⟩
  · intro target
    obtain ⟨t', ht', pre, b, post, hs, hcontains, rfl⟩ := markRefreshed_spec h target now
    exact ⟨pre, b, post, hs, hcontains, ht', deadline_marked b now refreshAfter⟩
  · intro randoms r
    exact refreshLoop_ends hpos randoms r _ _ h (List.length_filter_le _ _)

/-- With one contact, heard at time 0, the only bucket is due after its time. -/
theorem refresh_schedule_due : ∃ hist, Run (fun _ _ => True) 0 .ipv4 0 hist ∧
    hist.table.nextRefreshDeadline 5 = some 5 ∧
    (hist.table.staleRefreshTarget 5 5 0).isSome = true ∧
    (refreshLoop 5 5 (fun _ => 0) 1 hist.table).staleRefreshTarget 5 5 0 = none := by
  have hrun : ((replay (fun _ _ => True) ⟨new 0 .ipv4 0, [], 0⟩ [(sampleNode 1, 0)]).any
      (fun hist => decide (hist.table.nextRefreshDeadline 5 = some 5 ∧
        hist.table.buckets.length = 1))) = true := by
    decide +kernel
  obtain ⟨hist, hreplay, hone⟩ := (Option.any_eq_true _ _).1 hrun
  obtain ⟨hdeadline, hlen⟩ := of_decide_eq_true hone
  have run : Run (fun _ _ => True) 0 .ipv4 0 hist := replay_run .new hreplay
  obtain ⟨hiff, -, -, hends⟩ := refresh_schedule run 5 (by decide) 5
  refine ⟨hist, run, hdeadline, (hiff 0).2 ⟨5, hdeadline, by decide⟩, ?_⟩
  have hnone := hends (fun _ => 0) 0
  rwa [hlen] at hnone

end RoutingTable

end BtSniffer
