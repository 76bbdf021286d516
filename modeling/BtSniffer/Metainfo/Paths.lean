import BtSniffer.Lib.LexPrefix
import BtSniffer.Metainfo.Analyze

/-!
# Paths and links

What the checks of `analyze` on a sorted list say about the files in any order.

* `adjacent_iff` — the test of neighbours finds a prefix exactly if there is one anywhere.
* `targetExists_iff` — the binary search accepts the paths of files and their prefixes.
* `path_checks` — both, for every list of files.
-/

set_option autoImplicit false

namespace BtSniffer.Info

open Bencode LexPrefix

/-- Two files that are not padding, one of which has the path of the other or a prefix of it. -/
def PathConflict (files : List File) : Prop :=
  ∃ (i j : Nat) (f g : File), i ≠ j ∧ files[i]? = some f ∧ files[j]? = some g ∧
    f.kind ≠ .padding ∧ g.kind ≠ .padding ∧ f.rawPath <+: g.rawPath

/-- Neither path is a prefix of the other. -/
def Apart (a b : List Bytes) : Prop := ¬ a <+: b ∧ ¬ b <+: a

theorem Apart.symm {a b : List Bytes} (h : Apart a b) : Apart b a := ⟨h.2, h.1⟩

theorem prefix_pathRank {a b : List Bytes} : pathRank a <+: pathRank b ↔ a <+: b :=
  List.prefix_map_iff_of_injective Tree.keyRank_injective

/-! ## Sorted paths -/

theorem sortPaths_perm (paths : List (List Bytes)) : (sortPaths paths).Perm paths :=
  List.perm_insertionSort _ paths

theorem sortPaths_sorted (paths : List (List Bytes)) :
    (sortPaths paths).Pairwise (fun a b => pathRank a ≤ pathRank b) := by
  have htotal : Std.Total (fun a b : List Bytes => pathRank a ≤ pathRank b) :=
    ⟨fun a b => le_total (pathRank a) (pathRank b)⟩
  have htrans : IsTrans (List Bytes) (fun a b => pathRank a ≤ pathRank b) :=
    ⟨fun _ _ _ => le_trans⟩
  exact List.pairwise_insertionSort _ paths

/-- No neighbour is a prefix. -/
theorem adjacentPrefix_false : ∀ {paths : List (List Bytes)}, adjacentPrefix paths = false ↔
    paths.IsChain (fun a b => ¬ pathRank a <+: pathRank b)
  | [] => by simp [adjacentPrefix]
  | [a] => by simp [adjacentPrefix]
  | a :: b :: rest => by
    rw [adjacentPrefix, Bool.or_eq_false_iff, adjacentPrefix_false, List.isChain_cons_cons,
      prefix_pathRank, ← Bool.not_eq_true, List.isPrefixOf_iff_prefix]

/-- In a sorted list a later path is a prefix of an earlier one only if they are equal. -/
theorem apart_of_sorted {paths : List (List Bytes)}
    (hsorted : paths.Pairwise (fun a b => pathRank a ≤ pathRank b))
    (h : paths.Pairwise (fun a b => ¬ pathRank a <+: pathRank b)) : paths.Pairwise Apart := by
  refine (hsorted.and h).imp (fun {a b} hab => ?_)
  obtain ⟨hle, hnot⟩ := hab
  refine ⟨fun hp => hnot (prefix_pathRank.2 hp), fun hp => hnot ?_⟩
  have hback := prefix_le (prefix_pathRank.2 hp)
  rw [le_antisymm hle hback]

/-- **Neighbours are enough.** -/
theorem adjacent_iff (paths : List (List Bytes)) :
    adjacentPrefix (sortPaths paths) = false ↔ paths.Pairwise Apart := by
  have hperm : (sortPaths paths).Pairwise Apart ↔ paths.Pairwise Apart :=
    (sortPaths_perm paths).pairwise_iff Apart.symm
  rw [adjacentPrefix_false, ← hperm]
  constructor
  · intro h
    exact apart_of_sorted (sortPaths_sorted paths)
      (pairwise_of_adjacent (sortPaths_sorted paths) h)
  · intro h
    exact (h.imp (fun {a b} hab hp => hab.1 (prefix_pathRank.1 hp))).isChain

/-- Files without a conflict. -/
theorem pairwise_regularPaths {files : List File} :
    (regularPaths files).Pairwise Apart ↔ ¬ PathConflict files := by
  unfold regularPaths
  rw [List.pairwise_map, List.pairwise_filter, List.pairwise_iff_getElem]
  constructor
  · rintro h ⟨i, j, f, g, hij, hi, hj, hf, hg, hp⟩
    obtain ⟨hilt, rfl⟩ := List.getElem?_eq_some_iff.1 hi
    obtain ⟨hjlt, rfl⟩ := List.getElem?_eq_some_iff.1 hj
    rcases Nat.lt_or_gt_of_ne hij with hlt | hgt
    · exact (h i j hilt hjlt hlt (by simpa using hf) (by simpa using hg)).1 hp
    · exact (h j i hjlt hilt hgt (by simpa using hg) (by simpa using hf)).2 hp
  · intro h i j hi hj hlt hf hg
    have hgeti := List.getElem?_eq_getElem hi
    have hgetj := List.getElem?_eq_getElem hj
    refine ⟨fun hp => h ⟨i, j, _, _, by omega, hgeti, hgetj, ?_, ?_, hp⟩,
      fun hp => h ⟨j, i, _, _, by omega, hgetj, hgeti, ?_, ?_, hp⟩⟩
    · simpa using hf
    · simpa using hg
    · simpa using hg
    · simpa using hf

/-! ## Links -/

theorem mem_regularPaths {files : List File} {p : List Bytes} :
    p ∈ regularPaths files ↔ ∃ f ∈ files, f.kind ≠ .padding ∧ f.rawPath = p := by
  simp [regularPaths, and_assoc]

/-- **The binary search finds files and directories.** -/
theorem targetExists_iff (paths : List (List Bytes)) (target : List Bytes) :
    targetExists (sortPaths paths) target = true ↔ ∃ p ∈ paths, target <+: p := by
  have hmem : ∀ p, p ∈ sortPaths paths ↔ p ∈ paths := fun p => (sortPaths_perm paths).mem_iff
  unfold targetExists binarySearch
  cases hfind : (sortPaths paths).findIdx? (fun p => p == target) with
  | some i =>
    simp only [true_iff]
    obtain ⟨p, hp, heq⟩ : ∃ p ∈ sortPaths paths, (p == target) = true := by
      by_contra hnone
      have hall : ∀ p ∈ sortPaths paths, (p == target) = false := by
        intro p hp
        by_contra hne
        exact hnone ⟨p, hp, by simpa using hne⟩
      rw [List.findIdx?_eq_none_iff.2 hall] at hfind
      cases hfind
    exact ⟨p, (hmem p).1 hp, by rw [beq_iff_eq.1 heq]⟩
  | none =>
    have habsent : ∀ p ∈ sortPaths paths, p ≠ target := by
      intro p hp
      simpa using List.findIdx?_eq_none_iff.1 hfind p hp
    simp only
    constructor
    · intro h
      obtain ⟨p, hp, hprefix⟩ := (Option.any_eq_true _ _).1 h
      exact ⟨p, (hmem p).1 (List.mem_of_getElem? hp), List.isPrefixOf_iff_prefix.1 hprefix⟩
    · rintro ⟨q, hq, hprefix⟩
      have hrank := prefix_pathRank.2 hprefix
      obtain ⟨p, hp, hle, hpq⟩ := least_above (fun _ => decide_eq_true_iff)
        (sortPaths_sorted paths) q ((hmem q).2 hq) (prefix_le hrank)
      rw [hp]
      exact List.isPrefixOf_iff_prefix.2 (prefix_pathRank.1 (prefix_of_between hle hpq hrank))

/-- **Path and symlink checks.** For every list of files with arbitrary paths and targets: a conflict is
reported exactly if two files that are not padding have paths of which one is a prefix of the other (or
equal to it); without a conflict a target is accepted exactly if it is the path of a file that is not
padding or a prefix of one, and the checks pass exactly if every target is accepted. -/
theorem path_checks (files : List File) :
    (checkPaths files = .error "path_conflict" ↔ PathConflict files) ∧
    (¬ PathConflict files → ∀ target,
      (targetExists (sortPaths (regularPaths files)) target = true ↔
        ∃ f ∈ files, f.kind ≠ .padding ∧ target <+: f.rawPath)) ∧
    (checkPaths files = .ok () ↔ ¬ PathConflict files ∧ ∀ f ∈ files, ∀ target,
      f.rawTarget = some target → ∃ g ∈ files, g.kind ≠ .padding ∧ target <+: g.rawPath) := by
  have htarget : ∀ target, (targetExists (sortPaths (regularPaths files)) target = true ↔
      ∃ f ∈ files, f.kind ≠ .padding ∧ target <+: f.rawPath) := by
    intro target
    rw [targetExists_iff]
    constructor
    · rintro ⟨p, hp, hprefix⟩
      obtain ⟨f, hf, hkind, rfl⟩ := mem_regularPaths.1 hp
      exact ⟨f, hf, hkind, hprefix⟩
    · rintro ⟨f, hf, hkind, hprefix⟩
      exact ⟨f.rawPath, mem_regularPaths.2 ⟨f, hf, hkind, rfl⟩, hprefix⟩
  have hconflict : adjacentPrefix (sortPaths (regularPaths files)) = true ↔ PathConflict files := by
    rw [← Bool.not_eq_false, adjacent_iff, pairwise_regularPaths, not_not]
  refine ⟨?_, fun _ => htarget, ?_⟩
  · unfold checkPaths
    simp only
    by_cases hc : PathConflict files
    · rw [if_pos (hconflict.2 hc)]
      exact ⟨fun _ => hc, fun _ => rfl⟩
    · rw [if_neg (fun h => hc (hconflict.1 h))]
      constructor
      · intro h
        split at h <;> simp at h
      · exact fun h => absurd h hc
  · unfold checkPaths
    simp only
    by_cases hc : PathConflict files
    · rw [if_pos (hconflict.2 hc)]
      exact ⟨fun h => (by cases h), fun h => absurd hc h.1⟩
    · rw [if_neg (fun h => hc (hconflict.1 h))]
      have hall : files.all (fun f => f.rawTarget.all
          (targetExists (sortPaths (regularPaths files)))) = true ↔ ∀ f ∈ files, ∀ target,
          f.rawTarget = some target → ∃ g ∈ files, g.kind ≠ .padding ∧ target <+: g.rawPath := by
        simp only [List.all_eq_true, Option.all_eq_true]
        constructor
        · intro h f hf target ht
          exact (htarget target).1 (h f hf target ht)
        · intro h f hf target ht
          exact (htarget target).2 (h f hf target ht)
      split
      · rename_i hpass
        exact ⟨fun _ => ⟨hc, hall.1 hpass⟩, fun _ => rfl⟩
      · rename_i hfail
        exact ⟨fun h => (by cases h), fun h => absurd (hall.2 h.2) hfail⟩

end BtSniffer.Info
