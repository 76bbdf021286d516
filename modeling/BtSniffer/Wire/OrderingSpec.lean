import BtSniffer.Wire.Ordering

/-!
# What the normalizers read and print

* `readAtom_ok` — an atom is read exactly if the input starts with a canonical one; the length taken
  from its content is the length of its encoding.
* `Readable` — the values a reader accepts: canonical atoms, distinct keys, not nested too deep.
* `read_sound` — what is read is the normal form of such a value.
-/

set_option autoImplicit false

namespace BtSniffer

open Bencode

theorem except_bind_ok {ε α β : Type} {x : Except ε α} {f : α → Except ε β} {b : β}
    (h : (x >>= f) = .ok b) : ∃ a, x = .ok a ∧ f a = .ok b := by
  cases x with
  | error e => cases h
  | ok a => exact ⟨a, rfl, h⟩

/-! ## Values of trees -/

namespace Value

mutual

/-- The value read from a sorted tree. -/
def ofTree : Tree → Value
  | .atom o => .atom o.encode
  | .list ts => .list (ofList ts)
  | .dict es => .dict (ofEntries es)

/-- The values of some trees. -/
def ofList : List Tree → List Value
  | [] => []
  | t :: ts => ofTree t :: ofList ts

/-- The entries of some trees. -/
def ofEntries : List (List UInt8 × Tree) → List (List UInt8 × List UInt8 × Value)
  | [] => []
  | (k, t) :: es => (k, encodeBytes k, ofTree t) :: ofEntries es

end

theorem ofEntries_eq : ∀ es : List (List UInt8 × Tree),
    ofEntries es = es.map (fun e => (e.1, encodeBytes e.1, ofTree e.2))
  | [] => rfl
  | (k, t) :: es => by rw [ofEntries, List.map_cons, ofEntries_eq es]

theorem writeList_ofList : ∀ ts : List Tree, (∀ t ∈ ts, (ofTree t).write = t.encode) →
    writeList (ofList ts) = Tree.encodeList ts
  | [], _ => rfl
  | t :: ts, h => by
    rw [ofList, writeList, Tree.encodeList, h t (by simp),
      writeList_ofList ts (fun u hu => h u (by simp [hu]))]

theorem writeEntries_ofEntries : ∀ es : List (List UInt8 × Tree),
    (∀ e ∈ es, (ofTree e.2).write = e.2.encode) → writeEntries (ofEntries es) = Tree.encodeEntries es
  | [], _ => rfl
  | (k, t) :: es, h => by
    rw [ofEntries, writeEntries, Tree.encodeEntries, h (k, t) (by simp),
      writeEntries_ofEntries es (fun u hu => h u (by simp [hu]))]

/-- Printing the value of a tree encodes the tree. -/
theorem write_ofTree (t : Tree) : (ofTree t).write = t.encode := by
  induction t using Tree.induct with
  | atom o => rfl
  | list ts ih => rw [ofTree, write, Tree.encode, writeList_ofList ts ih]
  | dict es ih => rw [ofTree, write, Tree.encode, writeEntries_ofEntries es ih]

end Value

theorem containsKey_ofEntries (es : List (List UInt8 × Tree)) (key : List UInt8) :
    containsKey (Value.ofEntries es) key = true ↔ key ∈ es.map Prod.fst := by
  unfold containsKey
  rw [Value.ofEntries_eq, List.any_map, List.any_eq_true, List.mem_map]
  simp only [Function.comp, beq_iff_eq]

/-- Inserting a new key keeps the entries in order. -/
theorem insertEntry_ofEntries (k : List UInt8) (t : Tree) : ∀ es : List (List UInt8 × Tree),
    k ∉ es.map Prod.fst →
    insertEntry (k, encodeBytes k, Value.ofTree t) (Value.ofEntries es) =
      Value.ofEntries (es.orderedInsert Tree.byKey (k, t))
  | [], _ => rfl
  | (k', t') :: es, h => by
    simp only [List.map_cons, List.mem_cons, not_or] at h
    rw [List.orderedInsert_cons, Value.ofEntries, insertEntry]
    by_cases hlt : Tree.keyRank k < Tree.keyRank k'
    · have hle : Tree.byKey (k, t) (k', t') := le_of_lt hlt
      rw [if_pos hlt, if_pos hle]
      rfl
    · have hle : ¬ Tree.byKey (k, t) (k', t') := fun hle =>
        hlt (lt_of_le_of_ne hle (fun heq => h.1 (Tree.keyRank_injective heq)))
      rw [if_neg hlt, if_neg h.1, if_neg hle, insertEntry_ofEntries k t es h.2]
      rfl

/-! ## Dictionaries as they are read -/

/-- The sorted entries after some more were read. -/
def collect (l es : List (List UInt8 × Tree)) : List (List UInt8 × Tree) :=
  es.foldl (fun l e => l.orderedInsert Tree.byKey (Tree.normalEntry e)) l

theorem collect_perm : ∀ l es : List (List UInt8 × Tree),
    (collect l es).Perm (l ++ es.map Tree.normalEntry)
  | l, [] => by simp [collect]
  | l, e :: es => by
    rw [collect, List.foldl_cons]
    refine (collect_perm _ es).trans ?_
    refine ((List.perm_orderedInsert _ _ _).append_right _).trans ?_
    rw [List.cons_append, List.map_cons]
    exact List.perm_middle.symm

theorem collect_sorted : ∀ l es : List (List UInt8 × Tree), l.Pairwise Tree.byKey →
    (collect l es).Pairwise Tree.byKey
  | _, [], h => h
  | _, _ :: es, h => collect_sorted _ es (h.orderedInsert _ _)

/-- Entries with distinct keys end up as in the normal form. -/
theorem collect_nil {es : List (List UInt8 × Tree)} (h : (es.map Prod.fst).Nodup) :
    collect [] es = (es.map Tree.normalEntry).insertionSort Tree.byKey := by
  have hperm := collect_perm [] es
  rw [List.nil_append] at hperm
  refine List.Perm.eq_of_pairwise ?_ (collect_sorted [] es List.Pairwise.nil)
    (List.pairwise_insertionSort Tree.byKey _) (hperm.trans (List.perm_insertionSort _ _).symm)
  intro a b ha hb hab hba
  have hkey : a.1 = b.1 := Tree.keyRank_injective (le_antisymm hab hba)
  have hnodup : ((es.map Tree.normalEntry).map Prod.fst).Nodup := by
    rw [List.map_map]
    exact h
  exact List.inj_on_of_nodup_map hnodup (hperm.mem_iff.1 ha) (List.mem_insertionSort _ |>.1 hb) hkey

theorem keys_orderedInsert (l : List (List UInt8 × Tree)) (e : List UInt8 × Tree) :
    ((l.orderedInsert Tree.byKey (Tree.normalEntry e)).map Prod.fst).Perm (e.1 :: l.map Prod.fst) :=
  (List.perm_orderedInsert _ _ _).map Prod.fst

/-! ## Atoms -/

/-- The content of a byte string. -/
def contentOf : Object → Option (List UInt8)
  | .bytes content => some content
  | .integer _ => none

section Reader

variable {β ε : Type} {next : NextObject β} {refusals : Refusals β ε}

theorem splitAt_append (o rest : List UInt8) (content : Option (List UInt8)) :
    (splitAt (o ++ rest) o.length content : Except (Fault ε) _) = .ok ((o, content), rest) := by
  unfold splitAt
  rw [if_pos (by simp), List.take_left, List.drop_left]

/-- The head of a byte string is as long as the source reckons. -/
theorem length_bytes (content : List UInt8) : (Object.bytes content).encode.length =
    ilog10 content.length + 1 + 1 + content.length := by
  simp only [Object.encode, encodeBytes, List.length_append, List.length_cons, length_decimal,
    ilog10]
  omega

theorem length_integer (text : List UInt8) : (Object.integer text).encode.length = text.length + 2 := by
  simp [Object.encode]

theorem readAtom_of (hread : ReadsAtoms next) {o : Object} (ho : o.Canonical) (rest : List UInt8) :
    readAtom next refusals (o.encode ++ rest) = .ok ((o.encode, contentOf o), rest) := by
  obtain ⟨b, tail, hhead, hb⟩ := Tree.head_object o
  have hstart : (o.encode ++ rest).head?.any (fun b => b == 105 || isDigit b) = true := by
    rw [hhead]
    simpa using hb
  have hnext := (hread (o.encode ++ rest) o).2 ⟨ho, rest, rfl⟩
  unfold readAtom
  rw [if_pos hstart, hnext]
  cases o with
  | bytes content =>
    simp only [BendyObject.ofObject]
    rw [← length_bytes]
    exact splitAt_append _ rest _
  | integer text =>
    simp only [BendyObject.ofObject]
    rw [← length_integer]
    exact splitAt_append _ rest _

/-- An atom is read, or refused. -/
theorem readAtom_cases (hread : ReadsAtoms next) (input : List UInt8) :
    (∃ o rest, o.Canonical ∧ input = o.encode ++ rest ∧
        readAtom next refusals input = .ok ((o.encode, contentOf o), rest)) ∨
      ∃ e, readAtom next refusals input = .error (.refused e) := by
  have hobject : ∀ o : Object, next input = .ok (some (.ofObject o)) →
      ∃ o rest, o.Canonical ∧ input = o.encode ++ rest ∧
        readAtom next refusals input = .ok ((o.encode, contentOf o), rest) := by
    intro o hnext
    obtain ⟨ho, rest, rfl⟩ := (hread input o).1 hnext
    exact ⟨o, rest, ho, rfl, readAtom_of hread ho rest⟩
  by_cases hstart : input.head?.any (fun b => b == 105 || isDigit b) = true
  · match hnext : next input with
    | .error e => exact .inr ⟨_, by simp only [readAtom, if_pos hstart, hnext]; rfl⟩
    | .ok none => exact .inr ⟨_, by simp only [readAtom, if_pos hstart, hnext]; rfl⟩
    | .ok (some (.bytes content)) => exact .inl (hobject (.bytes content) hnext)
    | .ok (some (.integer text)) => exact .inl (hobject (.integer text) hnext)
    | .ok (some .list) => exact .inr ⟨_, by simp only [readAtom, if_pos hstart, hnext]; rfl⟩
    | .ok (some .dict) => exact .inr ⟨_, by simp only [readAtom, if_pos hstart, hnext]; rfl⟩
  · exact .inr ⟨_, by simp only [readAtom, if_neg hstart]; rfl⟩

theorem readAtom_ok (hread : ReadsAtoms next) {input : List UInt8}
    {r : (List UInt8 × Option (List UInt8)) × List UInt8}
    (h : readAtom next refusals input = .ok r) :
    ∃ o rest, o.Canonical ∧ input = o.encode ++ rest ∧ r = ((o.encode, contentOf o), rest) := by
  rcases readAtom_cases hread input with ⟨o, rest, ho, hin, hr⟩ | ⟨e, he⟩
  · rw [hr] at h
    cases h
    exact ⟨o, rest, ho, hin, rfl⟩
  · rw [he] at h
    cases h

/-! ## Values -/

/-- What a reader accepts at a depth. -/
structure Readable (limit depth : Nat) (t : Tree) : Prop where
  canonical : t.Canonical
  distinct : t.Distinct
  within : t.Within (limit - depth)

theorem readable_atom {limit depth : Nat} {o : Object} (h : o.Canonical) :
    Readable limit depth (.atom o) :=
  ⟨.atom h, .atom trivial, by cases limit - depth <;> trivial⟩

theorem canonical_list {ts : List Tree} : (Tree.list ts).Canonical ↔ ∀ t ∈ ts, t.Canonical := by
  constructor
  · intro h
    cases h with | list _ items => exact items
  · exact fun h => .list trivial h

theorem canonical_dict {es : List (List UInt8 × Tree)} :
    (Tree.dict es).Canonical ↔ ∀ e ∈ es, e.2.Canonical := by
  constructor
  · intro h
    cases h with | dict _ entries => exact entries
  · exact fun h => .dict trivial h

theorem within_list {limit depth : Nat} {ts : List Tree} :
    (Tree.list ts).Within (limit - depth) ↔
      depth < limit ∧ ∀ t ∈ ts, t.Within (limit - (depth + 1)) := by
  by_cases hlt : depth < limit
  · rw [show limit - depth = (limit - (depth + 1)) + 1 by omega, Tree.Within]
    simp [hlt]
  · rw [show limit - depth = 0 by omega, Tree.Within]
    · simp [hlt]
    · simp

theorem within_dict {limit depth : Nat} {es : List (List UInt8 × Tree)} :
    (Tree.dict es).Within (limit - depth) ↔
      depth < limit ∧ ∀ e ∈ es, e.2.Within (limit - (depth + 1)) := by
  by_cases hlt : depth < limit
  · rw [show limit - depth = (limit - (depth + 1)) + 1 by omega, Tree.Within]
    simp [hlt]
  · rw [show limit - depth = 0 by omega, Tree.Within]
    · simp [hlt]
    · simp

theorem readable_list {limit depth : Nat} {ts : List Tree} :
    Readable limit depth (.list ts) ↔
      depth < limit ∧ ∀ t ∈ ts, Readable limit (depth + 1) t := by
  constructor
  · rintro ⟨hc, hd, hw⟩
    obtain ⟨hlt, hw⟩ := within_list.1 hw
    cases hd with | list _ ditems =>
    exact ⟨hlt, fun t ht => ⟨canonical_list.1 hc t ht, ditems t ht, hw t ht⟩⟩
  · rintro ⟨hlt, h⟩
    exact ⟨canonical_list.2 (fun t ht => (h t ht).canonical),
      .list trivial (fun t ht => (h t ht).distinct),
      within_list.2 ⟨hlt, fun t ht => (h t ht).within⟩⟩

theorem readable_dict {limit depth : Nat} {es : List (List UInt8 × Tree)} :
    Readable limit depth (.dict es) ↔ depth < limit ∧ (es.map Prod.fst).Nodup ∧
      ∀ e ∈ es, Readable limit (depth + 1) e.2 := by
  constructor
  · rintro ⟨hc, hd, hw⟩
    obtain ⟨hlt, hw⟩ := within_dict.1 hw
    cases hd with | dict hd dentries =>
    exact ⟨hlt, hd, fun e he => ⟨canonical_dict.1 hc e he, dentries e he, hw e he⟩⟩
  · rintro ⟨hlt, hd, h⟩
    exact ⟨canonical_dict.2 (fun e he => (h e he).canonical),
      .dict hd (fun e he => (h e he).distinct),
      within_dict.2 ⟨hlt, fun e he => (h e he).within⟩⟩

variable {limit : Nat}

theorem skipOne_ok {input rest : List UInt8} (h : (skipOne input : Except (Fault ε) _) = .ok rest) :
    ∃ b, input = b :: rest := by
  cases input with
  | nil => cases h
  | cons b tail =>
    cases h
    exact ⟨b, rfl⟩

theorem ofTree_dict {es : List (List UInt8 × Tree)} (h : (es.map Prod.fst).Nodup) :
    Value.dict (Value.ofEntries (collect [] es)) = Value.ofTree (Tree.dict es).normal := by
  rw [Tree.normal_dict, Value.ofTree, collect_nil h]

theorem ofTree_list (ts : List Tree) :
    Value.list (Value.ofList (ts.map Tree.normal)) = Value.ofTree (Tree.list ts).normal := by
  rw [Tree.normal_list, Value.ofTree]

/-- **Soundness**, by induction on the fuel: for a value, the entries of a dictionary and the items of
a list. -/
theorem read_sound (hread : ReadsAtoms next) : ∀ fuel : Nat,
    (∀ input depth v rest, readValue next refusals limit fuel input depth = .ok (v, rest) →
      ∃ t, Readable limit depth t ∧ input = t.encode ++ rest ∧ v = Value.ofTree t.normal) ∧
    (∀ input depth l entries rest,
      readEntries next refusals limit fuel input depth (Value.ofEntries l) = .ok (entries, rest) →
      (l.map Prod.fst).Nodup →
      ∃ es, (∀ e ∈ es, Readable limit (depth + 1) e.2) ∧ (es.map Prod.fst).Nodup ∧
        (∀ e ∈ es, e.1 ∉ l.map Prod.fst) ∧ input = Tree.encodeEntries es ++ rest ∧
        rest.head? = some 101 ∧ entries = Value.ofEntries (collect l es)) ∧
    (∀ input depth values rest,
      readList next refusals limit fuel input depth = .ok (values, rest) →
      ∃ ts : List Tree, (∀ t ∈ ts, Readable limit (depth + 1) t) ∧
        input = Tree.encodeList ts ++ rest ∧ rest.head? = some 101 ∧
        values = Value.ofList (ts.map Tree.normal))
  | 0 => by
    refine ⟨?_, ?_, ?_⟩
    · intro input depth v rest h
      cases h
    · intro input depth l entries rest h
      cases h
    · intro input depth values rest h
      cases h
  | fuel + 1 => by
    obtain ⟨hvalue, hentries, hlist⟩ := read_sound hread fuel
    refine ⟨?_, ?_, ?_⟩
    · intro input depth v rest h
      rw [readValue] at h
      split at h
      · rename_i hstart
        split at h
        · cases h
        · rename_i hdepth
          split at h
          · rename_i hdict
            obtain ⟨start, hskip, h⟩ := except_bind_ok h
            obtain ⟨⟨entries, after⟩, hread', h⟩ := except_bind_ok h
            obtain ⟨last, hlast, h⟩ := except_bind_ok h
            cases h
            obtain ⟨b, rfl⟩ := skipOne_ok hskip
            cases hdict
            obtain ⟨es, hes, hnodup, -, rfl, hhead, rfl⟩ :=
              hentries start depth [] entries after hread' List.nodup_nil
            obtain ⟨c, rfl⟩ := skipOne_ok hlast
            cases hhead
            refine ⟨.dict es, readable_dict.2 ⟨by omega, hnodup, hes⟩, ?_, ofTree_dict hnodup⟩
            simp [Tree.encode]
          · rename_i hlistStart
            obtain ⟨start, hskip, h⟩ := except_bind_ok h
            obtain ⟨⟨values, after⟩, hread', h⟩ := except_bind_ok h
            obtain ⟨last, hlast, h⟩ := except_bind_ok h
            cases h
            obtain ⟨b, rfl⟩ := skipOne_ok hskip
            cases hstart.resolve_left hlistStart
            obtain ⟨ts, hts, rfl, hhead, rfl⟩ := hlist start depth values after hread'
            obtain ⟨c, rfl⟩ := skipOne_ok hlast
            cases hhead
            refine ⟨.list ts, readable_list.2 ⟨by omega, hts⟩, ?_, ofTree_list ts⟩
            simp [Tree.encode]
      · obtain ⟨⟨⟨encoded, content⟩, after⟩, hatom, h⟩ := except_bind_ok h
        cases h
        obtain ⟨o, tail, ho, rfl, hr⟩ := readAtom_ok hread hatom
        cases hr
        exact ⟨.atom o, readable_atom ho, rfl, rfl⟩
    · intro input depth l entries rest h hl
      rw [readEntries] at h
      split at h
      · rename_i hend
        cases h
        exact ⟨[], fun e he => (by cases he), List.nodup_nil, fun e he => (by cases he), rfl, hend,
          rfl⟩
      · obtain ⟨⟨⟨encodedKey, content⟩, afterKey⟩, hatom, hbody⟩ := except_bind_ok h
        obtain ⟨o, tail, ho, rfl, hr⟩ := readAtom_ok hread hatom
        cases hr
        cases o with
        | integer text => cases hbody
        | bytes key =>
          simp only [contentOf] at hbody
          split at hbody
          · cases hbody
          · rename_i hfresh
            rw [containsKey_ofEntries] at hfresh
            obtain ⟨⟨value, after⟩, hval, hmore⟩ := except_bind_ok hbody
            obtain ⟨t, ht, rfl, rfl⟩ := hvalue _ _ _ _ hval
            change readEntries next refusals limit fuel after depth
              (insertEntry (key, encodeBytes key, Value.ofTree t.normal) _) = _ at hmore
            rw [insertEntry_ofEntries key t.normal l hfresh] at hmore
            have hkeys := keys_orderedInsert l (key, t)
            obtain ⟨es, hes, hnodup, hnew, rfl, hhead, rfl⟩ := hentries _ _ _ _ _ hmore
              (hkeys.nodup_iff.2 (List.nodup_cons.2 ⟨hfresh, hl⟩))
            have hnew' : ∀ e ∈ es, e.1 ≠ key ∧ e.1 ∉ l.map Prod.fst := by
              intro e he
              have := mt hkeys.mem_iff.2 (hnew e he)
              rwa [List.mem_cons, not_or] at this
            refine ⟨(key, t) :: es, ?_, ?_, ?_, ?_, hhead, rfl⟩
            · intro e he
              rcases List.mem_cons.1 he with rfl | he
              · exact ht
              · exact hes e he
            · refine List.nodup_cons.2 ⟨?_, hnodup⟩
              intro hmem
              obtain ⟨e, he, hke⟩ := List.mem_map.1 hmem
              exact (hnew' e he).1 hke
            · intro e he
              rcases List.mem_cons.1 he with rfl | he
              · exact hfresh
              · exact (hnew' e he).2
            · simp [Tree.encodeEntries, Object.encode]
    · intro input depth values rest h
      rw [readList] at h
      split at h
      · rename_i hend
        cases h
        exact ⟨[], fun t ht => (by cases ht), rfl, hend, rfl⟩
      · obtain ⟨⟨value, after⟩, hval, h⟩ := except_bind_ok h
        obtain ⟨⟨values', rest'⟩, hrest, h⟩ := except_bind_ok h
        cases h
        obtain ⟨t, ht, rfl, rfl⟩ := hvalue _ _ _ _ hval
        obtain ⟨ts, hts, rfl, hhead, rfl⟩ := hlist _ _ _ _ hrest
        refine ⟨t :: ts, ?_, by simp [Tree.encodeList], hhead, rfl⟩
        intro u hu
        rcases List.mem_cons.1 hu with rfl | hu
        · exact ht
        · exact hts u hu

end Reader

end BtSniffer
