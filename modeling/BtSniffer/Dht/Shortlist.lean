import BtSniffer.Dht.NodeId
import BtSniffer.Lib.Table

/-!
# The shortlist of a lookup

Reference model of `src/dht/shortlist.rs`: the closest candidates that did not fail.
-/

set_option autoImplicit false

namespace BtSniffer

open Relational

/-- `CandidateState`. -/
inductive CandidateState where
  | unqueried
  | inFlight
  | succeeded
  | failed
  deriving DecidableEq, Repr

/-- The candidates in the order of their distance. -/
def byDistance (target : NodeId) (candidates : List (NodeId × CandidateState)) :
    List (NodeId × CandidateState) :=
  (candidates.filter (fun c => decide (c.2 ≠ .failed))).insertionSort
    (Table.orderBy (fun c => distance c.1 target))

/-- `closest_valid`. -/
def closestValid (candidates : List (NodeId × CandidateState)) (target : NodeId) (limit : Nat) :
    List NodeId :=
  ((byDistance target candidates).take limit).map Prod.fst

variable {candidates : List (NodeId × CandidateState)} {target id : NodeId} {limit : Nat}

theorem mem_byDistance {c : NodeId × CandidateState} :
    c ∈ byDistance target candidates ↔ c ∈ candidates ∧ c.2 ≠ .failed := by
  rw [byDistance, List.mem_insertionSort, List.mem_filter, decide_eq_true_eq]

theorem byDistance_nodup (h : (candidates.map Prod.fst).Nodup) :
    ((byDistance target candidates).map Prod.fst).Nodup := by
  have hperm : (byDistance target candidates).Perm
      (candidates.filter (fun c => decide (c.2 ≠ .failed))) := List.perm_insertionSort _ _
  exact (hperm.map _).nodup_iff.2 ((List.filter_sublist.map _).nodup h)

/-- A candidate of the shortlist did not fail. -/
theorem mem_closestValid (h : id ∈ closestValid candidates target limit) :
    ∃ state, (id, state) ∈ candidates ∧ state ≠ .failed := by
  obtain ⟨c, hc, rfl⟩ := List.mem_map.1 h
  exact ⟨c.2, mem_byDistance.1 (List.mem_of_mem_take hc)⟩

theorem closestValid_nodup (h : (candidates.map Prod.fst).Nodup) :
    (closestValid candidates target limit).Nodup :=
  ((List.take_sublist _ _).map _).nodup (byDistance_nodup h)

theorem length_closestValid_le : (closestValid candidates target limit).length ≤ limit := by
  unfold closestValid
  rw [List.length_map]
  exact List.length_take_le _ _

/-- **The shortlist is closest**: it has all candidates that did not fail, or it is full and no other
one is closer. -/
theorem closestValid_spec {c : NodeId × CandidateState} (hc : c ∈ candidates)
    (hfailed : c.2 ≠ .failed) : c.1 ∈ closestValid candidates target limit ∨
      ((closestValid candidates target limit).length = limit ∧
        ∀ id ∈ closestValid candidates target limit, distance id target ≤ distance c.1 target) := by
  have hmem : c ∈ byDistance target candidates := mem_byDistance.2 ⟨hc, hfailed⟩
  have hsplit := List.take_append_drop limit (byDistance target candidates)
  rw [← hsplit] at hmem
  rcases List.mem_append.1 hmem with hmem | hmem
  · exact .inl (List.mem_map_of_mem hmem)
  · refine .inr ⟨?_, ?_⟩
    · have hlt : limit < (byDistance target candidates).length := by
        by_contra hge
        rw [List.drop_eq_nil_of_le (Nat.le_of_not_lt hge)] at hmem
        cases hmem
      unfold closestValid
      rw [List.length_map, List.length_take]
      omega
    · intro id hid
      obtain ⟨d, hd, rfl⟩ := List.mem_map.1 hid
      have hsorted : (byDistance target candidates).Pairwise
          (Table.orderBy (fun c => distance c.1 target)) := List.pairwise_insertionSort _ _
      rw [← hsplit, List.pairwise_append] at hsorted
      exact hsorted.2.2 d hd c hmem

end BtSniffer
