import BtSniffer.Metainfo.Paths
import BtSniffer.Metainfo.Reasons

/-!
# The file tree

What `tree` lists: the leaves of a dictionary, in the order of their paths.

* `LeafAt` — a leaf of a dictionary; `leaves` — all of them, by key (`mem_leaves`).
* `leaves_increasing`, `leaves_apart` — their paths are strictly increasing and none is a prefix of
  another.
* `tree_walk` — a walk that succeeds adds the files of the leaves and gives its path stack back.
* `file_tree` — the main result.
-/

set_option autoImplicit false

namespace BtSniffer.Info

open Bencode LexPrefix

/-! ## Leaves -/

/-- A leaf: the path to it and its properties. -/
inductive LeafAt : Value → List Bytes → Dict → Prop
  | here {d properties : Dict} (h : Dict.get d [] = some (.dict properties)) :
      LeafAt (.dict d) [] properties
  | step {d : Dict} {name : Bytes} {child : Value} {path : List Bytes} {properties : Dict}
      (hdir : Dict.get d [] = none) (hmem : (name, child) ∈ d) (h : LeafAt child path properties) :
      LeafAt (.dict d) (name :: path) properties

mutual

/-- The leaves of a value, by key. -/
def leaves : Value → List (List Bytes × Dict)
  | .dict d =>
    match Dict.get d [] with
    | some (.dict properties) => [([], properties)]
    | some _ => []
    | none => leavesEntries d
  | _ => []

def leavesEntries : List (Bytes × Value) → List (List Bytes × Dict)
  | [] => []
  | (name, child) :: rest =>
    (leaves child).map (fun l => (name :: l.1, l.2)) ++ leavesEntries rest

end

theorem leaves_leaf {d properties : Dict} (h : Dict.get d [] = some (.dict properties)) :
    leaves (.dict d) = [([], properties)] := by
  rw [leaves, h]

theorem leaves_directory {d : Dict} (h : Dict.get d [] = none) :
    leaves (.dict d) = leavesEntries d := by
  rw [leaves, h]

theorem mem_leavesEntries {l : List Bytes × Dict} : ∀ {es : List (Bytes × Value)},
    l ∈ leavesEntries es ↔ ∃ name child p, (name, child) ∈ es ∧ (p, l.2) ∈ leaves child ∧
      l.1 = name :: p
  | [] => by simp [leavesEntries]
  | (name, child) :: rest => by
    rw [leavesEntries, List.mem_append, mem_leavesEntries]
    constructor
    · rintro (h | ⟨name', child', p, hmem, hleaf, heq⟩)
      · obtain ⟨x, hx, rfl⟩ := List.mem_map.1 h
        exact ⟨name, child, x.1, List.mem_cons_self, hx, rfl⟩
      · exact ⟨name', child', p, List.mem_cons_of_mem _ hmem, hleaf, heq⟩
    · rintro ⟨name', child', p, hmem, hleaf, heq⟩
      rcases List.mem_cons.1 hmem with hfirst | hmem
      · cases hfirst
        refine .inl (List.mem_map.2 ⟨(p, l.2), hleaf, ?_⟩)
        rw [← heq]
      · exact .inr ⟨name', child', p, hmem, hleaf, heq⟩

/-- A value has leaves only if it is a leaf or a directory. -/
theorem leaves_cases {v : Value} {l : List Bytes × Dict} (h : l ∈ leaves v) :
    ∃ d, v = .dict d ∧ ((Dict.get d [] = some (.dict l.2) ∧ l.1 = []) ∨
      (Dict.get d [] = none ∧ l ∈ leavesEntries d)) := by
  cases v with
  | dict d =>
    refine ⟨d, rfl, ?_⟩
    cases hget : Dict.get d [] with
    | none =>
      rw [leaves_directory hget] at h
      exact .inr ⟨rfl, h⟩
    | some x =>
      cases x with
      | dict inner =>
        rw [leaves_leaf hget, List.mem_singleton] at h
        cases h
        exact .inl ⟨rfl, rfl⟩
      | _ =>
        rw [leaves, hget] at h
        exact absurd h List.not_mem_nil
  | _ =>
    rw [leaves] at h
    · exact absurd h List.not_mem_nil
    all_goals simp

theorem leafAt_of_mem {p : List Bytes} {properties : Dict} :
    ∀ {v : Value}, (p, properties) ∈ leaves v → LeafAt v p properties := by
  induction p with
  | nil =>
    intro v h
    obtain ⟨d, rfl, ⟨hget, -⟩ | ⟨-, hmem⟩⟩ := leaves_cases h
    · exact .here hget
    · obtain ⟨name, child, q, -, -, heq⟩ := mem_leavesEntries.1 hmem
      cases heq
  | cons name p ih =>
    intro v h
    obtain ⟨d, rfl, ⟨-, heq⟩ | ⟨hget, hmem⟩⟩ := leaves_cases h
    · cases heq
    · obtain ⟨name', child, q, hentry, hleaf, heq⟩ := mem_leavesEntries.1 hmem
      cases heq
      exact .step hget hentry (ih hleaf)

theorem mem_leaves {v : Value} {p : List Bytes} {properties : Dict} :
    (p, properties) ∈ leaves v ↔ LeafAt v p properties := by
  constructor
  · exact leafAt_of_mem
  · intro h
    induction h with
    | here h =>
      rw [leaves_leaf h]
      exact List.mem_singleton.2 rfl
    | step hdir hmem _ ih =>
      rw [leaves_directory hdir]
      exact mem_leavesEntries.2 ⟨_, _, _, hmem, ih, rfl⟩

/-! ## The order of the leaves -/

theorem apart_cons_of_ne {a b : Bytes} (h : a ≠ b) (p q : List Bytes) :
    Apart (a :: p) (b :: q) :=
  ⟨fun hp => h (List.cons_prefix_cons.1 hp).1, fun hp => h (List.cons_prefix_cons.1 hp).1.symm⟩

theorem apart_cons {a : Bytes} {p q : List Bytes} (h : Apart p q) : Apart (a :: p) (a :: q) :=
  ⟨fun hp => h.1 (List.cons_prefix_cons.1 hp).2, fun hp => h.2 (List.cons_prefix_cons.1 hp).2⟩

/-- One path comes before the other and is no prefix of it. -/
def Precedes (a b : List Bytes × Dict) : Prop := pathRank a.1 < pathRank b.1 ∧ Apart a.1 b.1

mutual

/-- **Leaves come in strictly increasing order and none is above another.** -/
theorem leaves_precede : ∀ {v : Value}, v.Ordered → (leaves v).Pairwise Precedes
  | .bytes _, _ => by
    rw [leaves]
    · exact .nil
    · simp
  | .integer _, _ => by
    rw [leaves]
    · exact .nil
    · simp
  | .list _, _ => by
    rw [leaves]
    · exact .nil
    · simp
  | .dict d, h => by
    cases h with
    | dict hkeys hvalues =>
      cases hget : Dict.get d [] with
      | none =>
        rw [leaves_directory hget]
        exact leavesEntries_precede hkeys hvalues
      | some x =>
        rw [leaves, hget]
        cases x with
        | dict inner => exact List.pairwise_singleton _ _
        | _ => exact .nil

theorem leavesEntries_precede : ∀ {es : List (Bytes × Value)},
    es.Pairwise (fun a b => Tree.keyRank a.1 < Tree.keyRank b.1) → (∀ e ∈ es, e.2.Ordered) →
    (leavesEntries es).Pairwise Precedes
  | [], _, _ => by
    rw [leavesEntries]
    exact .nil
  | (name, child) :: rest, hkeys, hvalues => by
    obtain ⟨hfirst, hrest⟩ := List.pairwise_cons.1 hkeys
    rw [leavesEntries, List.pairwise_append]
    refine ⟨?_, leavesEntries_precede hrest (fun e he => hvalues e (List.mem_cons_of_mem _ he)), ?_⟩
    · rw [List.pairwise_map]
      have hchild : child.Ordered := hvalues (name, child) List.mem_cons_self
      refine (leaves_precede hchild).imp (fun {a b} hab => ⟨?_, apart_cons hab.2⟩)
      exact List.cons_lt_cons_iff.2 (.inr ⟨rfl, hab.1⟩)
    · intro a ha b hb
      obtain ⟨x, -, rfl⟩ := List.mem_map.1 ha
      obtain ⟨name', child', q, hmem, -, heq⟩ := mem_leavesEntries.1 hb
      have hlt : Tree.keyRank name < Tree.keyRank name' := hfirst _ hmem
      unfold Precedes
      rw [heq]
      refine ⟨List.cons_lt_cons_iff.2 (.inl hlt), apart_cons_of_ne (fun hn => ?_) _ _⟩
      exact absurd hlt (hn ▸ lt_irrefl _)

end

/-! ## The walk -/

/-- The file of a leaf, under a path. -/
def LeafFile (base : List Bytes) (l : List Bytes × Dict) (f : File) : Prop :=
  ∃ b c, leaf l.2 (base ++ l.1) b = .ok (f, c)

theorem LeafFile.rawPath {base : List Bytes} {l : List Bytes × Dict} {f : File}
    (h : LeafFile base l f) : f.rawPath = base ++ l.1 := by
  obtain ⟨b, c, hleaf⟩ := h
  exact file_rawPath (leaf_ok hleaf).1

theorem LeafFile.unique {base : List Bytes} {l : List Bytes × Dict} {f g : File}
    (hf : LeafFile base l f) (hg : LeafFile base l g) : f = g := by
  obtain ⟨b, c, hf⟩ := hf
  obtain ⟨b', c', hg⟩ := hg
  exact file_same (leaf_ok hf).1 (leaf_ok hg).1

/-- What a walk that succeeds does: it gives its path stack back and adds the files of the leaves, whose
paths have valid segments only. -/
structure Walked (found : List (List Bytes × Dict)) (w w' : Walk) : Prop where
  path : w'.path = w.path
  files : ∃ files, w'.out = w.out ++ files ∧ List.Forall₂ (LeafFile w.path) found files
  segments : ∀ l ∈ found, ∀ s ∈ l.1, segment s = .ok ()
  rooted : ∀ l ∈ found, w.path ++ l.1 ≠ []

mutual

/-- **The walk lists the leaves.** -/
theorem tree_walk : ∀ {v : Value} {w w' : Walk}, tree v w = .ok w' → Walked (leaves v) w w'
  | .bytes _, w, w', h => by
    rw [tree] at h
    · cases h
    · simp
  | .integer _, w, w', h => by
    rw [tree] at h
    · cases h
    · simp
  | .list _, w, w', h => by
    rw [tree] at h
    · cases h
    · simp
  | .dict d, w, w', h => by
    rw [tree] at h
    split at h
    · rename_i value hget
      split at h
      · cases h
      · rename_i hshape
        obtain ⟨properties, hprops, h⟩ := except_bind_ok h
        obtain ⟨f, hf, h⟩ := except_bind_ok h
        cases h
        have hvalue : value = .dict properties := by
          cases value with
          | dict inner =>
            cases hprops
            rfl
          | _ => cases hprops
        subst hvalue
        rw [leaves_leaf hget]
        refine ⟨rfl, ⟨[f.1], rfl, .cons ⟨w.budget, f.2, ?_⟩ .nil⟩, ?_, ?_⟩
        · rw [List.append_nil]
          exact hf
        · intro l hl s hs
          rw [List.mem_singleton.1 hl] at hs
          exact absurd hs List.not_mem_nil
        · intro l hl
          rw [List.mem_singleton.1 hl, List.append_nil]
          exact fun hnil => hshape (.inl hnil)
    · rename_i hget
      rw [leaves_directory hget]
      exact treeEntries_walk h

theorem treeEntries_walk : ∀ {es : List (Bytes × Value)} {w w' : Walk},
    treeEntries es w = .ok w' → Walked (leavesEntries es) w w'
  | [], w, w', h => by
    rw [treeEntries] at h
    cases h
    rw [leavesEntries]
    exact ⟨rfl, ⟨[], (List.append_nil _).symm, .nil⟩, fun l hl => absurd hl List.not_mem_nil,
      fun l hl => absurd hl List.not_mem_nil⟩
  | (name, child) :: rest, w, w', h => by
    rw [treeEntries] at h
    obtain ⟨u, hsegment, h⟩ := except_bind_ok h
    obtain ⟨mid, hmid, h⟩ := except_bind_ok h
    obtain ⟨hpath, ⟨first, hout, hfiles⟩, hsegments, hrooted⟩ := tree_walk hmid
    have hback : mid.path.dropLast = w.path := by
      rw [hpath]
      exact List.dropLast_concat
    obtain ⟨hpath', ⟨second, hout', hfiles'⟩, hsegments', hrooted'⟩ := treeEntries_walk h
    simp only [hback] at hpath' hout' hfiles' hrooted'
    rw [leavesEntries]
    refine ⟨hpath', ⟨first ++ second, ?_, ?_⟩, ?_, ?_⟩
    · rw [hout', hout, List.append_assoc]
    · refine List.rel_append ?_ hfiles'
      rw [List.forall₂_map_left_iff]
      refine hfiles.imp (fun l f hlf => ?_)
      obtain ⟨b, c, hleaf⟩ := hlf
      refine ⟨b, c, ?_⟩
      simpa using hleaf
    · intro l hl s hs
      rcases List.mem_append.1 hl with hl | hl
      · obtain ⟨x, hx, rfl⟩ := List.mem_map.1 hl
        rcases List.mem_cons.1 hs with rfl | hs
        · exact hsegment
        · exact hsegments x hx s hs
      · exact hsegments' l hl s hs
    · intro l hl
      rcases List.mem_append.1 hl with hl | hl
      · obtain ⟨x, hx, rfl⟩ := List.mem_map.1 hl
        simp
      · exact hrooted' l hl

end

/-- A name that may stand in a path. -/
def ValidSegment (s : Bytes) : Prop :=
  s ≠ [] ∧ s ≠ [46] ∧ s ≠ [46, 46] ∧ 47 ∉ s ∧ 92 ∉ s ∧ 0 ∉ s

theorem segment_ok {s : Bytes} : segment s = .ok () ↔ ValidSegment s := by
  unfold segment ValidSegment
  split
  · rename_i h
    constructor
    · intro he
      cases he
    · rintro ⟨h1, h2, h3, h4, h5, h6⟩
      rcases h with h | h | h | h | h | h
      · exact absurd h h1
      · exact absurd h h2
      · exact absurd h h3
      · exact absurd h h4
      · exact absurd h h5
      · exact absurd h h6
  · rename_i h
    simp only [not_or] at h
    exact ⟨fun _ => h, fun _ => rfl⟩

/-- The paths of the files are the paths of the leaves, in order. -/
theorem rawPaths_of_leaves {found : List (List Bytes × Dict)} {files : List File}
    (h : List.Forall₂ (LeafFile []) found files) :
    files.map File.rawPath = found.map Prod.fst := by
  induction h with
  | nil => rfl
  | cons hf _ ih => rw [List.map_cons, List.map_cons, ih, hf.rawPath, List.nil_append]

theorem forall₂_mem_left {α β : Type} {R : α → β → Prop} {l : List α} {m : List β}
    (h : List.Forall₂ R l m) : ∀ a ∈ l, ∃ b ∈ m, R a b := by
  induction h with
  | nil => exact fun a ha => absurd ha List.not_mem_nil
  | cons hab _ ih =>
    intro a ha
    rcases List.mem_cons.1 ha with rfl | ha
    · exact ⟨_, List.mem_cons_self, hab⟩
    · obtain ⟨b, hb, hr⟩ := ih a ha
      exact ⟨b, List.mem_cons_of_mem _ hb, hr⟩

theorem forall₂_unique {α β : Type} {R : α → β → Prop} (hu : ∀ a x y, R a x → R a y → x = y)
    {l : List α} {m n : List β} (hm : List.Forall₂ R l m) (hn : List.Forall₂ R l n) : m = n := by
  induction hm generalizing n with
  | nil =>
    cases hn
    rfl
  | cons hab _ ih =>
    cases hn with
    | cons hac hrest => rw [hu _ _ _ hab hac, ih hrest]

/-- The files of a walk from the root. -/
theorem walk_files {v : Value} {budget : Nat} {w : Walk}
    (h : tree v ⟨[], [], budget⟩ = .ok w) : List.Forall₂ (LeafFile []) (leaves v) w.out := by
  obtain ⟨files, hout, hfiles⟩ := (tree_walk h).files
  have hw : w.out = files := hout
  rw [hw]
  exact hfiles

/-- The paths of a walk from the root come in order and are apart. -/
theorem walk_precedes {v : Value} (hv : v.Ordered) {budget : Nat} {w : Walk}
    (h : tree v ⟨[], [], budget⟩ = .ok w) :
    w.out.Pairwise (fun f g => pathRank f.rawPath < pathRank g.rawPath ∧
      Apart f.rawPath g.rawPath) := by
  have hleaves := leaves_precede hv
  have hpaths : ((leaves v).map Prod.fst).Pairwise (fun a b => pathRank a < pathRank b ∧
      Apart a b) := by
    rw [List.pairwise_map]
    exact hleaves
  rw [← rawPaths_of_leaves (walk_files h), List.pairwise_map] at hpaths
  exact hpaths

/-! ## The root of an analysis -/

theorem Value.Ordered.get {d : Dict} (h : (Value.dict d).Ordered) {k : Bytes} {v : Value}
    (hv : Dict.get d k = some v) : v.Ordered := by
  obtain ⟨e, he, rfl⟩ := Option.map_eq_some_iff.1 hv
  cases h with
  | dict hkeys hvalues => exact hvalues e (List.mem_of_find?_eq_some he)

theorem parseRoot_ordered {decoder : InfoDecoder} {info : Bytes} {r : Dict × Nat}
    (h : parseRoot decoder info = .ok r) : (Value.dict r.1).Ordered := by
  unfold parseRoot at h
  split at h
  · cases h
  · split at h
    · cases h
    · cases h
    · obtain ⟨root, hroot, h⟩ := except_bind_ok h
      split at h
      · cases h
      · cases h
      · obtain ⟨d, hd, h⟩ := except_bind_ok h
        cases h
        have hordered := value_ordered hroot
        cases hvalue : root.1 with
        | dict d' =>
          rw [hvalue] at hd hordered
          cases hd
          exact hordered
        | _ =>
          rw [hvalue] at hd
          cases hd

/-- The files of a version with a file tree. -/
theorem v2Files_ok {d : Dict} {budget : Nat} {r : List File × Nat} (h : v2Files d budget = .ok r) :
    ∃ root w, Dict.get d (key "file tree") = some root ∧ tree root ⟨[], [], budget⟩ = .ok w ∧
      r.1 = w.out := by
  unfold v2Files at h
  obtain ⟨root, hroot, h⟩ := except_bind_ok h
  obtain ⟨w, hw, h⟩ := except_bind_ok h
  split at h
  · cases h
  · cases h
    exact ⟨root, w, required_ok hroot, hw, rfl⟩

/-- The files of a pure v2 dictionary are those of its file tree. -/
theorem parseFiles_v2 {d : Dict} {pieceLength budget : Nat} {files : List File}
    (h : parseFiles d .v2 pieceLength budget = .ok files) :
    ∃ root w, Dict.get d (key "file tree") = some root ∧ tree root ⟨[], [], budget⟩ = .ok w ∧
      files = w.out := by
  unfold parseFiles versionFiles at h
  obtain ⟨r, hr, h⟩ := except_bind_ok h
  rw [if_neg (by decide)] at hr h
  cases h
  exact v2Files_ok hr

/-- A pure v2 dictionary has no conflict of paths. -/
theorem v2_no_conflict {d : Dict} (hd : (Value.dict d).Ordered) {pieceLength budget : Nat}
    {files : List File} (h : parseFiles d .v2 pieceLength budget = .ok files) :
    ¬ PathConflict files := by
  obtain ⟨root, w, hroot, hw, rfl⟩ := parseFiles_v2 h
  rw [← pairwise_regularPaths]
  unfold regularPaths
  rw [List.pairwise_map]
  exact ((walk_precedes (hd.get hroot) hw).imp (fun hab => hab.2)).filter _

/-- The checks report a conflict only if there is one. -/
theorem checkPaths_conflict {files : List File} (h : checkPaths files = .error "path_conflict") :
    PathConflict files := by
  unfold checkPaths at h
  simp only at h
  split at h
  · rename_i hadjacent
    by_contra hnone
    rw [← pairwise_regularPaths, ← adjacent_iff, hadjacent] at hnone
    cases hnone
  · split at h
    · cases h
    · simp at h

/-- **The walk over a file tree.** If `tree` succeeds on a dictionary with an empty path: the path stack is
empty again; the output has exactly one file for every leaf, made of its properties, in strictly
increasing order of the raw paths; the paths are not empty, none is equal to another or a prefix of it,
and their segments are valid; an empty directory adds nothing; and with any other budget the output is
the same.  So an analysis of format v2 never ends with a conflict of paths. -/
theorem file_tree (d : Dict) (hd : (Value.dict d).Ordered) (budget : Nat) (w : Walk)
    (h : tree (.dict d) ⟨[], [], budget⟩ = .ok w) :
    w.path = [] ∧
    (∀ p properties, LeafAt (.dict d) p properties →
      ∃ f ∈ w.out, f.rawPath = p ∧ ∃ b c, leaf properties p b = .ok (f, c)) ∧
    (∀ f ∈ w.out, ∃ properties, LeafAt (.dict d) f.rawPath properties) ∧
    w.out.Pairwise (fun f g => pathRank f.rawPath < pathRank g.rawPath) ∧
    w.out.Pairwise (fun f g => ¬ f.rawPath <+: g.rawPath ∧ ¬ g.rawPath <+: f.rawPath) ∧
    (∀ f ∈ w.out, f.rawPath ≠ [] ∧ ∀ s ∈ f.rawPath, ValidSegment s) ∧
    (∀ u, tree (.dict []) u = .ok u) ∧
    (∀ budget' w', tree (.dict d) ⟨[], [], budget'⟩ = .ok w' → w'.out = w.out) ∧
    (∀ decoder info, (analyze decoder info).format = .v2 →
      (analyze decoder info).reason ≠ some "path_conflict") := by
  have hwalk := tree_walk h
  have hfiles := walk_files h
  have hfrom : ∀ f ∈ w.out, ∃ l ∈ leaves (.dict d), f.rawPath = l.1 := by
    intro f hf
    have hmem : f.rawPath ∈ w.out.map File.rawPath := List.mem_map_of_mem hf
    rw [rawPaths_of_leaves hfiles] at hmem
    obtain ⟨l, hl, hpath⟩ := List.mem_map.1 hmem
    exact ⟨l, hl, hpath.symm⟩
  refine ⟨hwalk.path, ?_, ?_, (walk_precedes hd h).imp (fun hab => hab.1),
    (walk_precedes hd h).imp (fun hab => hab.2), ?_, ?_, ?_, ?_⟩
  · intro p properties hleaf
    obtain ⟨f, hf, hlf⟩ := forall₂_mem_left hfiles (p, properties) (mem_leaves.2 hleaf)
    exact ⟨f, hf, hlf.rawPath, hlf⟩
  · intro f hf
    obtain ⟨l, hl, hpath⟩ := hfrom f hf
    exact ⟨l.2, hpath ▸ mem_leaves.1 hl⟩
  · intro f hf
    obtain ⟨l, hl, hpath⟩ := hfrom f hf
    rw [hpath]
    exact ⟨hwalk.rooted l hl, fun s hs => segment_ok.1 (hwalk.segments l hl s hs)⟩
  · intro u
    rfl
  · intro budget' w' h'
    exact forall₂_unique (fun _ _ _ hx hy => hx.unique hy) (walk_files h') hfiles
  · intro decoder info hformat hreason
    obtain ⟨e, he, hrej⟩ | ⟨d', left, version, hroot, -, hknown, hend⟩ := analyze_cases decoder info
    · rw [hrej] at hformat
      cases hformat
    · rw [hknown] at hformat
      obtain ⟨e, hbody, hrej⟩ | ⟨p, hbody, hvalid⟩ := hend
      · rw [hrej] at hreason
        cases hreason
        rw [hformat] at hbody
        obtain hmem | ⟨pieceLength, files, hparse, hcheck⟩ := parseBody_error hbody
        · revert hmem
          decide
        · exact v2_no_conflict (parseRoot_ordered hroot) hparse (checkPaths_conflict hcheck)
      · rw [hvalid] at hreason
        cases hreason

/-- A directory with an empty file and an empty directory. -/
def smallTree : Dict :=
  [([97], .dict [([98], .dict [([], .dict [(key "length", .integer 0)])])]), ([99], .dict [])]

theorem smallTree_ordered : (Value.dict smallTree).Ordered := by
  have hempty : (Value.dict []).Ordered := .dict .nil (fun e he => absurd he List.not_mem_nil)
  have hone : ∀ k v, Value.Ordered v → (Value.dict [(k, v)]).Ordered := fun k v hv =>
    .dict (List.pairwise_singleton _ _) (fun e he => (List.mem_singleton.1 he) ▸ hv)
  refine .dict (List.pairwise_pair.2 (by decide)) (fun e he => ?_)
  rcases List.mem_pair.1 he with rfl | rfl
  · exact hone _ _ (hone _ _ (hone _ _ (.integer 0)))
  · exact hempty

/-- The one leaf of `smallTree` is listed. -/
theorem file_tree_small : ∃ w, tree (.dict smallTree) ⟨[], [], 1000⟩ = .ok w ∧ w.path = [] ∧
    ∃ f ∈ w.out, f.rawPath = [[97], [98]] := by
  have hrun : ∃ w, tree (.dict smallTree) ⟨[], [], 1000⟩ = .ok w := ⟨_, rfl⟩
  obtain ⟨w, hw⟩ := hrun
  obtain ⟨hpath, hleaves, -⟩ := file_tree smallTree smallTree_ordered 1000 w hw
  obtain ⟨f, hf, hraw, -⟩ := hleaves [[97], [98]] [(key "length", .integer 0)]
    (.step rfl List.mem_cons_self (.step rfl List.mem_cons_self (.here rfl)))
  exact ⟨w, hw, hpath, f, hf, hraw⟩

end BtSniffer.Info
