import BtSniffer.Lib.Bencode
import Mathlib.Data.List.Perm.Basic
import Mathlib.Data.List.Sort
import Mathlib.Data.List.Lex

/-!
# Bencode values

* `Tree` — a value, with the entries of a dictionary in the order they were written.
* `Tree.encode` — its encoding; `Tree.encode_append_inj`: an input starts with at most one value.
* `Tree.normal` — the value with all dictionaries sorted by key.
* `Tree.Same` — the values that differ only in the order of dictionary entries; for values without
  duplicate keys these are the ones with the same normal form (`normal_eq_iff`).
-/

set_option autoImplicit false

namespace Bencode

/-- A value; the entries of a dictionary are in the order they are written. -/
inductive Tree where
  | atom (o : Object)
  | list (items : List Tree)
  | dict (entries : List (List UInt8 × Tree))

namespace Tree

/-- Induction over values. -/
theorem induct {P : Tree → Prop} (atom : ∀ o, P (.atom o))
    (list : ∀ ts, (∀ t ∈ ts, P t) → P (.list ts))
    (dict : ∀ es, (∀ e ∈ es, P e.2) → P (.dict es)) : ∀ t, P t := by
  intro t
  refine @Tree.rec P (fun ts => ∀ t ∈ ts, P t) (fun es => ∀ e ∈ es, P e.2) (fun e => P e.2) atom
    (fun ts h => list ts h) (fun es h => dict es h) (fun t ht => (by cases ht)) ?_
    (fun t ht => (by cases ht)) ?_ (fun k t h => h) t
  · intro head tail hhead htail t ht
    rcases List.mem_cons.1 ht with rfl | ht
    · exact hhead
    · exact htail t ht
  · intro head tail hhead htail e he
    rcases List.mem_cons.1 he with rfl | he
    · exact hhead
    · exact htail e he

/-! ## Encoding -/

mutual

/-- The encoding of a value. -/
def encode : Tree → List UInt8
  | .atom o => o.encode
  | .list items => 108 :: (encodeList items ++ [101])
  | .dict entries => 100 :: (encodeEntries entries ++ [101])

/-- The encodings of some values. -/
def encodeList : List Tree → List UInt8
  | [] => []
  | t :: ts => t.encode ++ encodeList ts

/-- The encodings of some entries. -/
def encodeEntries : List (List UInt8 × Tree) → List UInt8
  | [] => []
  | (k, t) :: es => encodeBytes k ++ (t.encode ++ encodeEntries es)

end

/-- The encoding of an entry. -/
def encodeEntry (e : List UInt8 × Tree) : List UInt8 := encodeBytes e.1 ++ e.2.encode

theorem encodeList_eq : ∀ ts : List Tree, encodeList ts = ts.flatMap encode
  | [] => rfl
  | t :: ts => by rw [encodeList, List.flatMap_cons, encodeList_eq ts]

theorem encodeEntries_eq : ∀ es : List (List UInt8 × Tree), encodeEntries es = es.flatMap encodeEntry
  | [] => rfl
  | (k, t) :: es => by
    rw [encodeEntries, List.flatMap_cons, encodeEntries_eq es, encodeEntry, List.append_assoc]

/-! ## Properties of all parts -/

/-- A property of a value and all its parts. -/
inductive All (P : Tree → Prop) : Tree → Prop
  | atom {o : Object} (h : P (.atom o)) : All P (.atom o)
  | list {ts : List Tree} (h : P (.list ts)) (items : ∀ t ∈ ts, All P t) : All P (.list ts)
  | dict {es : List (List UInt8 × Tree)} (h : P (.dict es)) (entries : ∀ e ∈ es, All P e.2) :
      All P (.dict es)

/-- The order of keys by their bytes. -/
def keyRank (k : List UInt8) : List Nat := k.map UInt8.toNat

theorem keyRank_injective : Function.Injective keyRank :=
  List.map_injective_iff.2 (fun _ _ h => UInt8.toNat_inj.1 h)

/-- All atoms are canonical. -/
def Canonical : Tree → Prop := All fun
  | .atom o => o.Canonical
  | _ => True

/-- No dictionary has a key twice. -/
def Distinct : Tree → Prop := All fun
  | .dict es => (es.map Prod.fst).Nodup
  | _ => True

/-- The keys of every dictionary are strictly increasing. -/
def Sorted : Tree → Prop := All fun
  | .dict es => es.Pairwise (fun a b => keyRank a.1 < keyRank b.1)
  | _ => True

/-- At most `limit` nested containers. -/
def Within : Nat → Tree → Prop
  | _, .atom _ => True
  | 0, _ => False
  | limit + 1, .list ts => ∀ t ∈ ts, Within limit t
  | limit + 1, .dict es => ∀ e ∈ es, Within limit e.2

theorem Sorted.distinct {t : Tree} (h : t.Sorted) : t.Distinct := by
  induction t using Tree.induct with
  | atom o => exact .atom trivial
  | list ts ih =>
    cases h with
    | list h items => exact .list trivial (fun t ht => ih t ht (items t ht))
  | dict es ih =>
    cases h with
    | dict h entries =>
      refine .dict ?_ (fun e he => ih e he (entries e he))
      refine List.pairwise_map.2 (h.imp ?_)
      intro a b hab heq
      rw [heq] at hab
      exact lt_irrefl _ hab

theorem Within.mono {t : Tree} : ∀ {limit limit' : Nat}, t.Within limit → limit ≤ limit' →
    t.Within limit' := by
  induction t using Tree.induct with
  | atom o =>
    intro limit limit' _ _
    cases limit' <;> trivial
  | list ts ih =>
    intro limit limit' h hle
    obtain _ | limit := limit
    · exact h.elim
    · obtain _ | limit' := limit'
      · omega
      · exact fun t ht => ih t ht (h t ht) (by omega)
  | dict es ih =>
    intro limit limit' h hle
    obtain _ | limit := limit
    · exact h.elim
    · obtain _ | limit' := limit'
      · omega
      · exact fun e he => ih e he (h e he) (by omega)

/-! ## An input starts with at most one value -/

theorem digit_of_decimal (n : Nat) : ∃ b ds, decimal n = b :: ds ∧ isDigit b = true := by
  cases hd : decimal n with
  | nil =>
    have := length_decimal n
    simp [hd] at this
  | cons b ds => exact ⟨b, ds, rfl, decimal_digits n b (by simp [hd])⟩

/-- An atom starts with a digit or an `i`. -/
theorem head_object (o : Object) :
    ∃ b rest, o.encode = b :: rest ∧ (b = 105 ∨ isDigit b = true) := by
  cases o with
  | integer text => exact ⟨105, _, rfl, .inl rfl⟩
  | bytes content =>
    obtain ⟨b, ds, hds, hdigit⟩ := digit_of_decimal content.length
    exact ⟨b, ds ++ 58 :: content, by simp [Object.encode, encodeBytes, hds], .inr hdigit⟩

/-- No value starts with an `e`. -/
theorem head_ne_e (t : Tree) : ∃ b rest, t.encode = b :: rest ∧ b ≠ 101 := by
  cases t with
  | atom o =>
    obtain ⟨b, rest, he, hb⟩ := head_object o
    refine ⟨b, rest, by rw [encode, he], ?_⟩
    rintro rfl
    exact absurd hb (by decide)
  | list items => exact ⟨108, _, by rw [encode], by decide⟩
  | dict entries => exact ⟨100, _, by rw [encode], by decide⟩

theorem encodeList_inj : ∀ {ts ts' : List Tree} {r r' : List UInt8},
    (∀ t ∈ ts, ∀ t' ∈ ts', ∀ r r', t.encode ++ r = t'.encode ++ r' → t = t' ∧ r = r') →
    encodeList ts ++ 101 :: r = encodeList ts' ++ 101 :: r' → ts = ts' ∧ r = r'
  | [], [], r, r', _, h => by
    simp only [encodeList, List.nil_append, List.cons.injEq, true_and] at h
    exact ⟨rfl, h⟩
  | [], t' :: ts', r, r', _, h => by
    obtain ⟨b, rest, he, hb⟩ := head_ne_e t'
    simp only [encodeList, he, List.nil_append, List.cons_append, List.cons.injEq] at h
    exact absurd h.1.symm hb
  | t :: ts, [], r, r', _, h => by
    obtain ⟨b, rest, he, hb⟩ := head_ne_e t
    simp only [encodeList, he, List.nil_append, List.cons_append, List.cons.injEq] at h
    exact absurd h.1 hb
  | t :: ts, t' :: ts', r, r', hinj, h => by
    simp only [encodeList, List.append_assoc] at h
    obtain ⟨rfl, hrest⟩ := hinj t (by simp) t' (by simp) _ _ h
    obtain ⟨rfl, hr⟩ := encodeList_inj
      (fun u hu u' hu' => hinj u (by simp [hu]) u' (by simp [hu'])) hrest
    exact ⟨rfl, hr⟩

theorem encodeEntries_inj : ∀ {es es' : List (List UInt8 × Tree)} {r r' : List UInt8},
    (∀ e ∈ es, ∀ e' ∈ es', ∀ r r', e.2.encode ++ r = e'.2.encode ++ r' → e.2 = e'.2 ∧ r = r') →
    encodeEntries es ++ 101 :: r = encodeEntries es' ++ 101 :: r' → es = es' ∧ r = r'
  | [], [], r, r', _, h => by
    simp only [encodeEntries, List.nil_append, List.cons.injEq, true_and] at h
    exact ⟨rfl, h⟩
  | [], (k', t') :: es', r, r', _, h => by
    obtain ⟨b, ds, he, hb⟩ := digit_of_decimal k'.length
    simp only [encodeEntries, encodeBytes, he, List.nil_append, List.cons_append,
      List.cons.injEq] at h
    rw [← h.1] at hb
    exact absurd hb (by decide)
  | (k, t) :: es, [], r, r', _, h => by
    obtain ⟨b, ds, he, hb⟩ := digit_of_decimal k.length
    simp only [encodeEntries, encodeBytes, he, List.nil_append, List.cons_append,
      List.cons.injEq] at h
    rw [h.1] at hb
    exact absurd hb (by decide)
  | (k, t) :: es, (k', t') :: es', r, r', hinj, h => by
    simp only [encodeEntries, List.append_assoc] at h
    obtain ⟨hk, hvalue⟩ := Bencode.encode_append_inj (show (Object.bytes k).Canonical from trivial)
      (show (Object.bytes k').Canonical from trivial) h
    cases hk
    obtain ⟨ht, hrest⟩ := hinj (k, t) (by simp) (k, t') (by simp) _ _ hvalue
    obtain ⟨rfl, hr⟩ := encodeEntries_inj
      (fun u hu u' hu' => hinj u (by simp [hu]) u' (by simp [hu'])) hrest
    simp only at ht
    exact ⟨by rw [ht], hr⟩

/-- **An input starts with at most one value.** -/
theorem encode_append_inj {t t' : Tree} (h : t.Canonical) (h' : t'.Canonical) :
    ∀ {r r' : List UInt8}, t.encode ++ r = t'.encode ++ r' → t = t' ∧ r = r' := by
  induction t using Tree.induct generalizing t' with
  | atom o =>
    intro r r' he
    obtain ⟨b, rest, ho, hb⟩ := head_object o
    cases t' with
    | atom o' =>
      cases h with | atom h => cases h' with | atom h' =>
      obtain ⟨rfl, hr⟩ := Bencode.encode_append_inj h h' he
      exact ⟨rfl, hr⟩
    | list items =>
      simp only [encode, ho, List.cons_append, List.cons.injEq] at he
      rw [he.1] at hb
      exact absurd hb (by decide)
    | dict entries =>
      simp only [encode, ho, List.cons_append, List.cons.injEq] at he
      rw [he.1] at hb
      exact absurd hb (by decide)
  | list ts ih =>
    intro r r' he
    cases t' with
    | atom o' =>
      obtain ⟨b, rest, ho, hb⟩ := head_object o'
      simp only [encode, ho, List.cons_append, List.cons.injEq] at he
      rw [← he.1] at hb
      exact absurd hb (by decide)
    | list ts' =>
      cases h with | list h items => cases h' with | list h' items' =>
      simp only [encode, List.cons_append, List.cons.injEq, true_and, List.append_assoc] at he
      obtain ⟨rfl, hr⟩ := encodeList_inj
        (fun u hu u' hu' r r' heq => ih u hu (items u hu) (items' u' hu') heq) he
      exact ⟨rfl, hr⟩
    | dict es' => simp [encode] at he
  | dict es ih =>
    intro r r' he
    cases t' with
    | atom o' =>
      obtain ⟨b, rest, ho, hb⟩ := head_object o'
      simp only [encode, ho, List.cons_append, List.cons.injEq] at he
      rw [← he.1] at hb
      exact absurd hb (by decide)
    | list ts' => simp [encode] at he
    | dict es' =>
      cases h with | dict h entries => cases h' with | dict h' entries' =>
      simp only [encode, List.cons_append, List.cons.injEq, true_and, List.append_assoc] at he
      obtain ⟨rfl, hr⟩ := encodeEntries_inj
        (fun u hu u' hu' r r' heq => ih u hu (entries u hu) (entries' u' hu') heq) he
      exact ⟨rfl, hr⟩

/-! ## Sorted dictionaries -/

/-- The order of entries by key. -/
def byKey (a b : List UInt8 × Tree) : Prop := keyRank a.1 ≤ keyRank b.1

instance : DecidableRel byKey := fun a b => inferInstanceAs (Decidable (keyRank a.1 ≤ keyRank b.1))

instance : Std.Total byKey := ⟨fun a b => le_total (keyRank a.1) (keyRank b.1)⟩

instance : IsTrans (List UInt8 × Tree) byKey :=
  ⟨fun a _ c hab hbc => show keyRank a.1 ≤ keyRank c.1 from le_trans hab hbc⟩

mutual

/-- The value with every dictionary sorted by key. -/
def normal : Tree → Tree
  | .atom o => .atom o
  | .list items => .list (normalList items)
  | .dict entries => .dict ((normalEntries entries).insertionSort byKey)

/-- Some values with every dictionary sorted. -/
def normalList : List Tree → List Tree
  | [] => []
  | t :: ts => t.normal :: normalList ts

/-- Some entries with every dictionary of their values sorted. -/
def normalEntries : List (List UInt8 × Tree) → List (List UInt8 × Tree)
  | [] => []
  | (k, t) :: es => (k, t.normal) :: normalEntries es

end

/-- An entry with every dictionary of its value sorted. -/
def normalEntry (e : List UInt8 × Tree) : List UInt8 × Tree := (e.1, e.2.normal)

theorem normalList_eq : ∀ ts : List Tree, normalList ts = ts.map normal
  | [] => rfl
  | t :: ts => by rw [normalList, List.map_cons, normalList_eq ts]

theorem normalEntries_eq : ∀ es : List (List UInt8 × Tree), normalEntries es = es.map normalEntry
  | [] => rfl
  | (k, t) :: es => by rw [normalEntries, List.map_cons, normalEntries_eq es, normalEntry]

theorem normal_list (ts : List Tree) : (Tree.list ts).normal = .list (ts.map normal) := by
  rw [normal, normalList_eq]

theorem normal_dict (es : List (List UInt8 × Tree)) :
    (Tree.dict es).normal = .dict ((es.map normalEntry).insertionSort byKey) := by
  rw [normal, normalEntries_eq]

theorem mem_normal_dict {es : List (List UInt8 × Tree)} {e : List UInt8 × Tree} :
    e ∈ (es.map normalEntry).insertionSort byKey ↔ ∃ a ∈ es, normalEntry a = e := by
  rw [List.mem_insertionSort, List.mem_map]

/-- The keys of a sorted dictionary are those of the dictionary. -/
theorem keys_normal (es : List (List UInt8 × Tree)) :
    (((es.map normalEntry).insertionSort byKey).map Prod.fst).Perm (es.map Prod.fst) := by
  refine ((List.perm_insertionSort byKey (es.map normalEntry)).map Prod.fst).trans ?_
  rw [List.map_map]
  exact List.Perm.refl _

theorem sorted_normal {t : Tree} (h : t.Distinct) : t.normal.Sorted := by
  induction t using Tree.induct with
  | atom o => exact .atom trivial
  | list ts ih =>
    cases h with | list h items =>
    rw [normal_list]
    refine .list trivial (fun t ht => ?_)
    obtain ⟨u, hu, rfl⟩ := List.mem_map.1 ht
    exact ih u hu (items u hu)
  | dict es ih =>
    cases h with | dict h entries =>
    rw [normal_dict]
    refine .dict ?_ (fun e he => ?_)
    · have hle := List.pairwise_insertionSort byKey (es.map normalEntry)
      have hnodup := List.pairwise_map.1 ((keys_normal es).nodup_iff.2 h)
      refine (hle.and hnodup).imp ?_
      intro a b hab
      exact lt_of_le_of_ne hab.1 (fun heq => hab.2 (keyRank_injective heq))
    · obtain ⟨a, ha, rfl⟩ := mem_normal_dict.1 he
      exact ih a ha (entries a ha)

theorem canonical_normal {t : Tree} (h : t.Canonical) : t.normal.Canonical := by
  induction t using Tree.induct with
  | atom o => exact h
  | list ts ih =>
    cases h with | list h items =>
    rw [normal_list]
    refine .list trivial (fun t ht => ?_)
    obtain ⟨u, hu, rfl⟩ := List.mem_map.1 ht
    exact ih u hu (items u hu)
  | dict es ih =>
    cases h with | dict h entries =>
    rw [normal_dict]
    refine .dict trivial (fun e he => ?_)
    obtain ⟨a, ha, rfl⟩ := mem_normal_dict.1 he
    exact ih a ha (entries a ha)

theorem within_normal {t : Tree} : ∀ {limit : Nat}, t.normal.Within limit ↔ t.Within limit := by
  induction t using Tree.induct with
  | atom o => exact Iff.rfl
  | list ts ih =>
    intro limit
    rw [normal_list]
    cases limit with
    | zero => exact Iff.rfl
    | succ limit =>
      constructor
      · exact fun h t ht => (ih t ht).1 (h _ (List.mem_map.2 ⟨t, ht, rfl⟩))
      · intro h t ht
        obtain ⟨u, hu, rfl⟩ := List.mem_map.1 ht
        exact (ih u hu).2 (h u hu)
  | dict es ih =>
    intro limit
    rw [normal_dict]
    cases limit with
    | zero => exact Iff.rfl
    | succ limit =>
      constructor
      · exact fun h e he => (ih e he).1 (h _ (mem_normal_dict.2 ⟨e, he, rfl⟩))
      · intro h e he
        obtain ⟨a, ha, rfl⟩ := mem_normal_dict.1 he
        exact (ih a ha).2 (h a ha)

/-- A value that is sorted is its own normal form. -/
theorem normal_of_sorted {t : Tree} (h : t.Sorted) : t.normal = t := by
  induction t using Tree.induct with
  | atom o => rfl
  | list ts ih =>
    cases h with | list h items =>
    rw [normal_list]
    congr 1
    conv_rhs => rw [← List.map_id ts]
    exact List.map_congr_left (fun t ht => ih t ht (items t ht))
  | dict es ih =>
    cases h with | dict h entries =>
    rw [normal_dict]
    have hid : es.map normalEntry = es := by
      conv_rhs => rw [← List.map_id es]
      refine List.map_congr_left (fun e he => ?_)
      rw [normalEntry, ih e he (entries e he)]
      rfl
    have hle : es.Pairwise byKey := List.Pairwise.imp (fun hab => le_of_lt hab) h
    rw [hid, hle.insertionSort_eq]

theorem length_encode_normal (t : Tree) : t.normal.encode.length = t.encode.length := by
  induction t using Tree.induct with
  | atom o => rfl
  | list ts ih =>
    rw [normal_list]
    simp only [encode, encodeList_eq, List.length_cons, List.length_append, List.length_flatMap,
      List.map_map]
    congr 3
    exact List.map_congr_left (fun t ht => ih t ht)
  | dict es ih =>
    rw [normal_dict]
    simp only [encode, encodeEntries_eq, List.length_cons, List.length_append, List.length_flatMap]
    congr 2
    rw [((List.perm_insertionSort byKey (es.map normalEntry)).map _).sum_eq, List.map_map]
    congr 1
    refine List.map_congr_left (fun e he => ?_)
    simp only [Function.comp, encodeEntry, normalEntry, List.length_append, ih e he]

/-! ## Values that differ in the order of entries -/

/-- The same value up to the order of dictionary entries: lists in the same order, dictionaries with
the same keys and, for each, the same value. -/
inductive Same : Tree → Tree → Prop
  | atom (o : Object) : Same (.atom o) (.atom o)
  | list {ts ts' : List Tree} (length : ts.length = ts'.length)
      (items : ∀ p ∈ ts.zip ts', Same p.1 p.2) : Same (.list ts) (.list ts')
  | dict {es es' aligned : List (List UInt8 × Tree)} (perm : aligned.Perm es')
      (keys : es.map Prod.fst = aligned.map Prod.fst)
      (values : ∀ p ∈ es.zip aligned, Same p.1.2 p.2.2) : Same (.dict es) (.dict es')

theorem map_eq_map_of_zip {α β : Type} {f : α → β} : ∀ {l m : List α}, l.length = m.length →
    (∀ p ∈ l.zip m, f p.1 = f p.2) → l.map f = m.map f
  | [], [], _, _ => rfl
  | a :: l, b :: m, hlen, h => by
    rw [List.map_cons, List.map_cons, h (a, b) (by simp),
      map_eq_map_of_zip (Nat.succ.inj hlen) (fun p hp => h p (by simp [hp]))]

theorem zip_of_map_eq_map {α β : Type} {f : α → β} : ∀ {l m : List α}, l.map f = m.map f →
    ∀ p ∈ l.zip m, f p.1 = f p.2
  | [], _, _, p, hp => by simp at hp
  | a :: l, [], h, p, hp => by simp at hp
  | a :: l, b :: m, h, p, hp => by
    rw [List.map_cons, List.map_cons, List.cons.injEq] at h
    rw [List.zip_cons_cons] at hp
    rcases List.mem_cons.1 hp with rfl | hp
    · exact h.1
    · exact zip_of_map_eq_map h.2 p hp

/-- Values that differ in the order of entries have the same normal form. -/
theorem Same.normal_eq {t t' : Tree} (h : Same t t') (hd : t'.Distinct) : t.normal = t'.normal := by
  induction h with
  | atom o => rfl
  | list hlen _ ih =>
    cases hd with | list hd items =>
    rw [normal_list, normal_list]
    congr 1
    exact map_eq_map_of_zip hlen
      (fun p hp => ih p hp (items p.2 (List.of_mem_zip hp).2))
  | @dict es es' aligned hperm hkeys _ ih =>
    cases hd with | dict hd entries =>
    rw [normal_dict, normal_dict]
    have hlen : es.length = aligned.length := by simpa using congrArg List.length hkeys
    have hmap : es.map normalEntry = aligned.map normalEntry := by
      refine map_eq_map_of_zip hlen (fun p hp => ?_)
      have hkey := zip_of_map_eq_map hkeys p hp
      have hvalue := ih p hp (entries p.2 (hperm.mem_iff.1 (List.of_mem_zip hp).2))
      unfold normalEntry
      rw [hkey, hvalue]
    rw [hmap]
    congr 1
    -- a dictionary without duplicate keys has one sorted form
    refine List.Perm.eq_of_pairwise ?_ (List.pairwise_insertionSort byKey _)
      (List.pairwise_insertionSort byKey _) ?_
    · intro a b ha hb hab hba
      have hrank : a.1 = b.1 := keyRank_injective (le_antisymm hab hba)
      have ha' : a ∈ es'.map normalEntry :=
        (hperm.map normalEntry).mem_iff.1 (List.mem_insertionSort _ |>.1 ha)
      have hb' : b ∈ es'.map normalEntry := List.mem_insertionSort _ |>.1 hb
      have hnodup : ((es'.map normalEntry).map Prod.fst).Nodup := by
        rw [List.map_map]
        exact hd
      exact List.inj_on_of_nodup_map hnodup ha' hb' hrank
    · exact (List.perm_insertionSort _ _).trans
        ((hperm.map normalEntry).trans (List.perm_insertionSort _ _).symm)

/-- Values with the same normal form differ in the order of entries only. -/
theorem same_of_normal_eq {t t' : Tree} (h : t.normal = t'.normal) : Same t t' := by
  induction t using Tree.induct generalizing t' with
  | atom o =>
    cases t' with
    | atom o' =>
      cases h
      exact .atom o
    | list ts' => simp [normal] at h
    | dict es' => simp [normal] at h
  | list ts ih =>
    cases t' with
    | atom o' => simp [normal] at h
    | dict es' => simp [normal] at h
    | list ts' =>
      rw [normal_list, normal_list, Tree.list.injEq] at h
      refine .list (by simpa using congrArg List.length h) (fun p hp => ?_)
      exact ih p.1 (List.of_mem_zip hp).1 (zip_of_map_eq_map h p hp)
  | dict es ih =>
    cases t' with
    | atom o' => simp [normal] at h
    | list ts' => simp [normal] at h
    | dict es' =>
      rw [normal_dict, normal_dict, Tree.dict.injEq] at h
      have hperm : (es.map normalEntry).Perm (es'.map normalEntry) :=
        (List.perm_insertionSort byKey _).symm.trans (h ▸ List.perm_insertionSort byKey _)
      -- bring the entries of one dictionary in the order of the other
      have hcomp : Relation.Comp (· = List.map normalEntry ·) List.Perm (es.map normalEntry) es' := by
        have := List.eq_map_comp_perm normalEntry
        rw [this]
        exact hperm
      obtain ⟨aligned, hmap, halign⟩ := hcomp
      refine .dict halign ?_ (fun p hp => ?_)
      · have := congrArg (List.map Prod.fst) hmap
        rwa [List.map_map, List.map_map] at this
      · have hentry := zip_of_map_eq_map hmap p hp
        exact ih p.1 (List.of_mem_zip hp).1 (congrArg Prod.snd hentry)

/-- **Values without duplicate keys differ in the order of entries exactly if they have the same
normal form.** -/
theorem normal_eq_iff {t t' : Tree} (hd : t'.Distinct) : t.normal = t'.normal ↔ Same t t' :=
  ⟨same_of_normal_eq, fun h => h.normal_eq hd⟩

theorem normal_normal {t : Tree} (h : t.Distinct) : t.normal.normal = t.normal :=
  normal_of_sorted (sorted_normal h)

/-- A value and its normal form differ in the order of entries only. -/
theorem same_normal {t : Tree} (h : t.Distinct) : Same t t.normal :=
  same_of_normal_eq (normal_normal h).symm

theorem forall_iff_of_zip {α : Type} {P : α → Prop} : ∀ {l m : List α}, l.length = m.length →
    (∀ p ∈ l.zip m, P p.1 ↔ P p.2) → ((∀ a ∈ l, P a) ↔ ∀ b ∈ m, P b)
  | [], [], _, _ => by simp
  | a :: l, b :: m, hlen, h => by
    rw [List.forall_mem_cons, List.forall_mem_cons, h (a, b) (by simp),
      forall_iff_of_zip (Nat.succ.inj hlen) (fun p hp => h p (by simp [hp]))]

/-- The order of entries is not what makes keys distinct. -/
theorem Same.distinct_iff {t t' : Tree} (h : Same t t') : t.Distinct ↔ t'.Distinct := by
  induction h with
  | atom o => exact Iff.rfl
  | list hlen _ ih =>
    have hitems := forall_iff_of_zip hlen ih
    constructor
    · intro h
      cases h with | list _ items => exact .list trivial (hitems.1 items)
    · intro h
      cases h with | list _ items => exact .list trivial (hitems.2 items)
  | @dict es es' aligned hperm hkeys _ ih =>
    have hlen : es.length = aligned.length := by simpa using congrArg List.length hkeys
    have hentries : (∀ e ∈ es, Distinct e.2) ↔ ∀ e ∈ es', Distinct e.2 := by
      rw [@forall_iff_of_zip _ (fun e : List UInt8 × Tree => Distinct e.2) _ _ hlen ih]
      exact forall_congr' (fun e => by rw [hperm.mem_iff])
    have hnodup : (es.map Prod.fst).Nodup ↔ (es'.map Prod.fst).Nodup := by
      rw [hkeys]
      exact (hperm.map Prod.fst).nodup_iff
    constructor
    · intro h
      cases h with | dict h entries => exact .dict (hnodup.1 h) (hentries.1 entries)
    · intro h
      cases h with | dict h entries => exact .dict (hnodup.2 h) (hentries.2 entries)

end Tree

end Bencode
