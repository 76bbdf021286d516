import BtSniffer.Wire.Inspection
import Mathlib.Data.List.Chain

/-!
# What an inspection reports

* `inspect_sound` — what the flags say of a value that was read to its end.
* `inspect_complete` — every value with canonical atoms within the depth limit is read to its end.
* `inspect_settled` — there is no panic, and twice the length of the input is enough fuel.
* `inspect_ok_iff` — when an inspection is complete, and its flags then.
-/

set_option autoImplicit false

namespace Bencode.Tree

/-- No key of a dictionary is below the key before it. -/
def Ascending : Tree → Prop := All fun
  | .dict es => (es.map Prod.fst).IsChain (fun a b => keyRank a ≤ keyRank b)
  | _ => True

theorem ascending_list {ts : List Tree} : (Tree.list ts).Ascending ↔ ∀ t ∈ ts, t.Ascending := by
  constructor
  · intro h
    cases h with | list _ items => exact items
  · exact fun h => .list trivial h

theorem ascending_dict {es : List (List UInt8 × Tree)} : (Tree.dict es).Ascending ↔
    (es.map Prod.fst).IsChain (fun a b => keyRank a ≤ keyRank b) ∧ ∀ e ∈ es, e.2.Ascending := by
  constructor
  · intro h
    cases h with | dict hchain entries => exact ⟨hchain, entries⟩
  · exact fun h => .dict h.1 h.2

theorem distinct_list {ts : List Tree} : (Tree.list ts).Distinct ↔ ∀ t ∈ ts, t.Distinct := by
  constructor
  · intro h
    cases h with | list _ items => exact items
  · exact fun h => .list trivial h

theorem distinct_dict {es : List (List UInt8 × Tree)} : (Tree.dict es).Distinct ↔
    (es.map Prod.fst).Nodup ∧ ∀ e ∈ es, e.2.Distinct := by
  constructor
  · intro h
    cases h with | dict hnodup entries => exact ⟨hnodup, entries⟩
  · exact fun h => .dict h.1 h.2

/-- Strictly increasing keys are ascending keys without duplicates. -/
theorem sorted_iff {t : Tree} (hd : t.Distinct) : t.Sorted ↔ t.Ascending := by
  have htrans : Trans (fun a b : List UInt8 => keyRank a ≤ keyRank b)
      (fun a b => keyRank a ≤ keyRank b) (fun a b => keyRank a ≤ keyRank b) := ⟨le_trans⟩
  induction t using Tree.induct with
  | atom o => exact ⟨fun _ => .atom trivial, fun _ => .atom trivial⟩
  | list ts ih =>
    rw [ascending_list]
    have hitems := distinct_list.1 hd
    constructor
    · intro h
      cases h with | list _ items => exact fun t ht => (ih t ht (hitems t ht)).1 (items t ht)
    · exact fun h => .list trivial (fun t ht => (ih t ht (hitems t ht)).2 (h t ht))
  | dict es ih =>
    rw [ascending_dict, List.isChain_iff_pairwise]
    obtain ⟨hnodup, hentries⟩ := distinct_dict.1 hd
    constructor
    · intro h
      cases h with
      | dict hsorted entries =>
        exact ⟨List.pairwise_map.2 (hsorted.imp le_of_lt),
          fun e he => (ih e he (hentries e he)).1 (entries e he)⟩
    · rintro ⟨hle, h⟩
      refine .dict ?_ (fun e he => (ih e he (hentries e he)).2 (h e he))
      refine ((List.pairwise_map.1 hle).and (List.pairwise_map.1 hnodup)).imp ?_
      rintro a b ⟨hab, hne⟩
      exact lt_of_le_of_ne hab (fun h => hne (keyRank_injective h))

end Bencode.Tree

namespace BtSniffer

open Bencode

/-! ## Flags -/

/-- The flags stay clear exactly if nothing was to be seen. -/
structure Marks (ascending distinct : Prop) (result result' : KeyInspection) : Prop where
  unsorted : result'.unsortedKeys = false ↔ result.unsortedKeys = false ∧ ascending
  duplicate : result'.duplicateKeys = false ↔ result.duplicateKeys = false ∧ distinct

theorem Marks.refl (result : KeyInspection) : Marks True True result result :=
  ⟨by simp, by simp⟩

theorem Marks.trans {P P' Q Q' : Prop} {r r' r'' : KeyInspection} (h : Marks P Q r r')
    (h' : Marks P' Q' r' r'') : Marks (P ∧ P') (Q ∧ Q') r r'' :=
  ⟨by rw [h'.unsorted, h.unsorted, and_assoc], by rw [h'.duplicate, h.duplicate, and_assoc]⟩

theorem Marks.congr {P P' Q Q' : Prop} {r r' : KeyInspection} (h : Marks P Q r r')
    (hP : P ↔ P') (hQ : Q ↔ Q') : Marks P' Q' r r' :=
  ⟨by rw [h.unsorted, hP], by rw [h.duplicate, hQ]⟩

theorem marks_observe (result : KeyInspection) (previous : Option (List UInt8))
    (seen : List (List UInt8)) (key : List UInt8) :
    Marks (∀ old, previous = some old → Tree.keyRank old ≤ Tree.keyRank key) (key ∉ seen)
      result (result.observe previous seen key) := by
  constructor
  · unfold KeyInspection.observe
    cases previous <;> simp
  · unfold KeyInspection.observe
    simp

/-- The keys of a dictionary after `previous`. -/
def KeysAfter (previous : Option (List UInt8)) (keys : List (List UInt8)) : Prop :=
  (previous.toList ++ keys).IsChain (fun a b => Tree.keyRank a ≤ Tree.keyRank b)

theorem keysAfter_cons (previous : Option (List UInt8)) (key : List UInt8)
    (keys : List (List UInt8)) : KeysAfter previous (key :: keys) ↔
      (∀ old, previous = some old → Tree.keyRank old ≤ Tree.keyRank key) ∧
        KeysAfter (some key) keys := by
  unfold KeysAfter
  cases previous <;> simp

theorem keysAfter_nil (previous : Option (List UInt8)) : KeysAfter previous [] := by
  unfold KeysAfter
  cases previous <;> simp

section Spec

variable {β : Type} {next : NextObject β} {limit : Nat}

/-- What the inspector accepts at a depth. -/
structure Scannable (limit depth : Nat) (t : Tree) : Prop where
  canonical : t.Canonical
  within : t.Within (limit - depth)

theorem scannable_list {depth : Nat} {ts : List Tree} : Scannable limit depth (.list ts) ↔
    depth < limit ∧ ∀ t ∈ ts, Scannable limit (depth + 1) t := by
  constructor
  · rintro ⟨hc, hw⟩
    obtain ⟨hlt, hw⟩ := within_list.1 hw
    exact ⟨hlt, fun t ht => ⟨canonical_list.1 hc t ht, hw t ht⟩⟩
  · rintro ⟨hlt, h⟩
    exact ⟨canonical_list.2 (fun t ht => (h t ht).canonical),
      within_list.2 ⟨hlt, fun t ht => (h t ht).within⟩⟩

theorem scannable_dict {depth : Nat} {es : List (List UInt8 × Tree)} :
    Scannable limit depth (.dict es) ↔
      depth < limit ∧ ∀ e ∈ es, Scannable limit (depth + 1) e.2 := by
  constructor
  · rintro ⟨hc, hw⟩
    obtain ⟨hlt, hw⟩ := within_dict.1 hw
    exact ⟨hlt, fun e he => ⟨canonical_dict.1 hc e he, hw e he⟩⟩
  · rintro ⟨hlt, h⟩
    exact ⟨canonical_dict.2 (fun e he => (h e he).canonical),
      within_dict.2 ⟨hlt, fun e he => (h e he).within⟩⟩

/-! ## Soundness -/

/-- How a value is read to its end. -/
theorem inspectValue_ok (hread : ReadsAtoms next) {fuel depth : Nat} {input rest : List UInt8}
    {r r' : KeyInspection}
    (h : inspectValue next limit (fuel + 1) input depth r = (.ok rest, r')) :
    (∃ o : Object, o.Canonical ∧ input = o.encode ++ rest ∧ r' = r) ∨
    (∃ start b, input = 100 :: start ∧ depth < limit ∧
      inspectItems next limit fuel true start depth [] none r = (.ok (b :: rest), r')) ∨
    (∃ start b, input = 108 :: start ∧ depth < limit ∧
      inspectItems next limit fuel false start depth [] none r = (.ok (b :: rest), r')) := by
  rw [inspectValue] at h
  split at h
  · rename_i hstart
    split at h
    · cases h
    · rename_i hdepth
      have hlt : depth < limit := by omega
      split at h
      · cases h
      · rename_i start hskip
        obtain ⟨c, rfl⟩ := skipOne_ok hskip
        split at h
        · cases h
        · rename_i after result hloop
          obtain ⟨hlast, rfl⟩ := Prod.mk.injEq .. ▸ h
          obtain ⟨b, rfl⟩ := skipOne_ok hlast
          rcases hstart with hd | hl
          · cases hd
            exact .inr (.inl ⟨start, b, rfl, hlt, hloop⟩)
          · cases hl
            exact .inr (.inr ⟨start, b, rfl, hlt, hloop⟩)
  · rcases inspectAtom_cases hread input with ⟨o, tail, ho, hin, hatom⟩ | herr
    · rw [hatom] at h
      cases h
      exact .inl ⟨o, ho, hin, rfl⟩
    · rw [herr] at h
      cases h

/-- How the loop over a dictionary ends. -/
theorem inspectItems_dict_ok (hread : ReadsAtoms next) {fuel depth : Nat} {input rest : List UInt8}
    {seen : List (List UInt8)} {previous : Option (List UInt8)} {r r' : KeyInspection}
    (h : inspectItems next limit (fuel + 1) true input depth seen previous r = (.ok rest, r')) :
    (input.head? = some 101 ∧ input = rest ∧ r' = r) ∨
    ∃ key afterKey after result, input = encodeBytes key ++ afterKey ∧
      inspectValue next limit fuel afterKey (depth + 1) (r.observe previous seen key) =
        (.ok after, result) ∧
      inspectItems next limit fuel true after depth (key :: seen) (some key) result =
        (.ok rest, r') := by
  rw [inspectItems] at h
  split at h
  · rename_i hend
    cases h
    exact .inl ⟨hend, rfl, rfl⟩
  · rw [if_pos rfl] at h
    rcases inspectAtom_cases hread input with ⟨o, tail, ho, hin, hatom⟩ | herr
    · rw [hatom] at h
      cases o with
      | integer text => cases h
      | bytes key =>
        simp only [contentOf] at h
        split at h
        · cases h
        · rename_i after result hval
          exact .inr ⟨key, tail, after, result, hin, hval, h⟩
    · rw [herr] at h
      cases h

/-- How the loop over a list ends. -/
theorem inspectItems_list_ok {fuel depth : Nat} {input rest : List UInt8}
    {seen : List (List UInt8)} {previous : Option (List UInt8)} {r r' : KeyInspection}
    (h : inspectItems next limit (fuel + 1) false input depth seen previous r = (.ok rest, r')) :
    (input.head? = some 101 ∧ input = rest ∧ r' = r) ∨
    ∃ after result, inspectValue next limit fuel input (depth + 1) r = (.ok after, result) ∧
      inspectItems next limit fuel false after depth seen previous result = (.ok rest, r') := by
  rw [inspectItems] at h
  split at h
  · rename_i hend
    cases h
    exact .inl ⟨hend, rfl, rfl⟩
  · rw [if_neg Bool.false_ne_true] at h
    split at h
    · cases h
    · rename_i after result hval
      exact .inr ⟨after, result, hval, h⟩

/-- **Soundness of the flags**, by induction on the fuel. -/
theorem inspect_sound (hread : ReadsAtoms next) : ∀ fuel : Nat,
    (∀ input depth r rest r', inspectValue next limit fuel input depth r = (.ok rest, r') →
      ∃ t, Scannable limit depth t ∧ input = t.encode ++ rest ∧ Marks t.Ascending t.Distinct r r') ∧
    (∀ input depth seen previous r rest r',
      inspectItems next limit fuel true input depth seen previous r = (.ok rest, r') →
      ∃ es : List (List UInt8 × Tree), (∀ e ∈ es, Scannable limit (depth + 1) e.2) ∧
        input = Tree.encodeEntries es ++ rest ∧ rest.head? = some 101 ∧
        Marks (KeysAfter previous (es.map Prod.fst) ∧ ∀ e ∈ es, e.2.Ascending)
          (((es.map Prod.fst).Nodup ∧ ∀ e ∈ es, e.1 ∉ seen) ∧ ∀ e ∈ es, e.2.Distinct) r r') ∧
    (∀ input depth seen previous r rest r',
      inspectItems next limit fuel false input depth seen previous r = (.ok rest, r') →
      ∃ ts : List Tree, (∀ t ∈ ts, Scannable limit (depth + 1) t) ∧
        input = Tree.encodeList ts ++ rest ∧ rest.head? = some 101 ∧
        Marks (∀ t ∈ ts, t.Ascending) (∀ t ∈ ts, t.Distinct) r r')
  | 0 => by
    refine ⟨?_, ?_, ?_⟩
    · intro input depth r rest r' h
      cases h
    · intro input depth seen previous r rest r' h
      cases h
    · intro input depth seen previous r rest r' h
      cases h
  | fuel + 1 => by
    obtain ⟨hvalue, hentries, hlist⟩ := inspect_sound hread fuel
    refine ⟨?_, ?_, ?_⟩
    · intro input depth r rest r' h
      rcases inspectValue_ok hread h with ⟨o, ho, rfl, rfl⟩ | ⟨start, b, rfl, hlt, hloop⟩ |
        ⟨start, b, rfl, hlt, hloop⟩
      · refine ⟨.atom o, ⟨.atom ho, (by cases limit - depth <;> trivial)⟩, rfl, ?_⟩
        exact (Marks.refl r').congr ⟨fun _ => .atom trivial, fun _ => trivial⟩
          ⟨fun _ => .atom trivial, fun _ => trivial⟩
      · obtain ⟨es, hes, rfl, hhead, hmarks⟩ := hentries _ _ _ _ _ _ _ hloop
        cases hhead
        refine ⟨.dict es, scannable_dict.2 ⟨hlt, hes⟩, by simp [Tree.encode], ?_⟩
        refine hmarks.congr Tree.ascending_dict.symm ?_
        rw [Tree.distinct_dict]
        simp
      · obtain ⟨ts, hts, rfl, hhead, hmarks⟩ := hlist _ _ _ _ _ _ _ hloop
        cases hhead
        exact ⟨.list ts, scannable_list.2 ⟨hlt, hts⟩, by simp [Tree.encode],
          hmarks.congr Tree.ascending_list.symm Tree.distinct_list.symm⟩
    · intro input depth seen previous r rest r' h
      rcases inspectItems_dict_ok hread h with ⟨hend, rfl, rfl⟩ |
        ⟨key, afterKey, after, result, rfl, hval, hloop⟩
      · refine ⟨[], fun e he => (by cases he), rfl, hend, (Marks.refl r').congr ?_ ?_⟩
        · simpa using keysAfter_nil previous
        · simp
      · obtain ⟨t, ht, rfl, hmark⟩ := hvalue _ _ _ _ _ hval
        obtain ⟨es, hes, rfl, hhead, hmarks⟩ := hentries _ _ _ _ _ _ _ hloop
        refine ⟨(key, t) :: es, ?_, by simp [Tree.encodeEntries], hhead, ?_⟩
        · intro e he
          rcases List.mem_cons.1 he with rfl | he
          · exact ht
          · exact hes e he
        · refine (((marks_observe r previous seen key).trans hmark).trans hmarks).congr ?_ ?_
          · simp only [List.map_cons, keysAfter_cons, List.forall_mem_cons]
            tauto
          · simp only [List.map_cons, List.nodup_cons, List.forall_mem_cons]
            simp only [List.mem_map, List.mem_cons, not_or, not_exists, not_and]
            constructor
            · rintro ⟨⟨hkey, hd⟩, ⟨hnodup, hnew⟩, hds⟩
              exact ⟨⟨⟨fun e he hek => (hnew e he).1 hek, hnodup⟩, hkey,
                fun e he => (hnew e he).2⟩, hd, hds⟩
            · rintro ⟨⟨⟨hfresh, hnodup⟩, hkey, hnew⟩, hd, hds⟩
              exact ⟨⟨hkey, hd⟩, ⟨hnodup, fun e he => ⟨hfresh e he, hnew e he⟩⟩, hds⟩
    · intro input depth seen previous r rest r' h
      rcases inspectItems_list_ok h with ⟨hend, rfl, rfl⟩ | ⟨after, result, hval, hloop⟩
      · exact ⟨[], fun t ht => (by cases ht), rfl, hend, (Marks.refl r').congr (by simp) (by simp)⟩
      · obtain ⟨t, ht, rfl, hmark⟩ := hvalue _ _ _ _ _ hval
        obtain ⟨ts, hts, rfl, hhead, hmarks⟩ := hlist _ _ _ _ _ _ _ hloop
        refine ⟨t :: ts, ?_, by simp [Tree.encodeList], hhead, ?_⟩
        · intro u hu
          rcases List.mem_cons.1 hu with rfl | hu
          · exact ht
          · exact hts u hu
        · exact (hmark.trans hmarks).congr (by simp) (by simp)

/-! ## Completeness -/

theorem inspectValue_items {fuel depth : Nat} {b c : UInt8} {start rest : List UInt8}
    {r r' : KeyInspection} (hb : b = 100 ∨ b = 108) (hlt : depth < limit)
    (h : inspectItems next limit fuel (decide (b = 100)) start depth [] none r =
      (.ok (c :: rest), r')) :
    inspectValue next limit (fuel + 1) (b :: start) depth r = (.ok rest, r') := by
  have hstart : (b :: start).head? = some 100 ∨ (b :: start).head? = some 108 := by
    simpa using hb
  have hflag : decide ((b :: start).head? = some 100) = decide (b = 100) := by simp
  rw [inspectValue, if_pos hstart, if_neg (by omega)]
  simp only [skipOne, hflag, h]

/-- **Completeness**, by induction on the fuel. -/
theorem inspect_complete (hread : ReadsAtoms next) : ∀ fuel : Nat,
    (∀ t depth rest r, Scannable limit depth t → 2 * (t.encode ++ rest).length + 1 ≤ fuel →
      ∃ r', inspectValue next limit fuel (t.encode ++ rest) depth r = (.ok rest, r')) ∧
    (∀ (es : List (List UInt8 × Tree)) depth seen previous rest r,
      (∀ e ∈ es, Scannable limit (depth + 1) e.2) →
      2 * (Tree.encodeEntries es ++ 101 :: rest).length + 2 ≤ fuel →
      ∃ r', inspectItems next limit fuel true (Tree.encodeEntries es ++ 101 :: rest) depth seen
        previous r = (.ok (101 :: rest), r')) ∧
    (∀ (ts : List Tree) depth seen previous rest r,
      (∀ t ∈ ts, Scannable limit (depth + 1) t) →
      2 * (Tree.encodeList ts ++ 101 :: rest).length + 2 ≤ fuel →
      ∃ r', inspectItems next limit fuel false (Tree.encodeList ts ++ 101 :: rest) depth seen
        previous r = (.ok (101 :: rest), r'))
  | 0 => by
    refine ⟨?_, ?_, ?_⟩
    · intro t depth rest r _ hfuel
      omega
    · intro es depth seen previous rest r _ hfuel
      omega
    · intro ts depth seen previous rest r _ hfuel
      omega
  | fuel + 1 => by
    obtain ⟨hvalue, hentries, hlist⟩ := inspect_complete hread fuel
    refine ⟨?_, ?_, ?_⟩
    · intro t depth rest r ht hfuel
      cases t with
      | atom o =>
        obtain ⟨b, tail, hhead, hb⟩ := Tree.head_object o
        have hstart : ¬ ((o.encode ++ rest).head? = some 100 ∨
            (o.encode ++ rest).head? = some 108) := by
          rw [hhead]
          simp only [List.cons_append, List.head?_cons, Option.some.injEq]
          rintro (rfl | rfl) <;> exact absurd hb (by decide)
        have ho : o.Canonical := by
          cases ht.canonical with | atom h => exact h
        refine ⟨r, ?_⟩
        rw [inspectValue, Tree.encode, if_neg hstart, inspectAtom_of hread ho rest]
      | dict es =>
        obtain ⟨hlt, hes⟩ := scannable_dict.1 ht
        have hbody : (Tree.dict es).encode ++ rest =
            100 :: (Tree.encodeEntries es ++ 101 :: rest) := by simp [Tree.encode]
        rw [hbody] at hfuel ⊢
        rw [List.length_cons] at hfuel
        obtain ⟨r', hloop⟩ := hentries es depth [] none rest r hes (by omega)
        exact ⟨r', inspectValue_items (.inl rfl) hlt hloop⟩
      | list ts =>
        obtain ⟨hlt, hts⟩ := scannable_list.1 ht
        have hbody : (Tree.list ts).encode ++ rest =
            108 :: (Tree.encodeList ts ++ 101 :: rest) := by simp [Tree.encode]
        rw [hbody] at hfuel ⊢
        rw [List.length_cons] at hfuel
        obtain ⟨r', hloop⟩ := hlist ts depth [] none rest r hts (by omega)
        exact ⟨r', inspectValue_items (.inr rfl) hlt hloop⟩
    · intro es depth seen previous rest r hes hfuel
      cases es with
      | nil =>
        exact ⟨r, by simp [inspectItems, Tree.encodeEntries]⟩
      | cons e es =>
        obtain ⟨k, t⟩ := e
        have hinput : Tree.encodeEntries ((k, t) :: es) ++ 101 :: rest =
            (Object.bytes k).encode ++ (t.encode ++ (Tree.encodeEntries es ++ 101 :: rest)) := by
          simp [Tree.encodeEntries, Object.encode]
        obtain ⟨b, ds, hds, hdigit⟩ := Tree.digit_of_decimal k.length
        have hstart : ¬ ((Object.bytes k).encode ++
            (t.encode ++ (Tree.encodeEntries es ++ 101 :: rest))).head? = some 101 := by
          simp only [Object.encode, encodeBytes, hds, List.cons_append, List.head?_cons,
            Option.some.injEq]
          rintro rfl
          exact absurd hdigit (by decide)
        rw [hinput] at hfuel ⊢
        have hpos := encodeBytes_pos k
        have htpos := encode_pos t
        rw [List.length_append, Object.encode] at hfuel
        obtain ⟨result, hval⟩ := hvalue t (depth + 1) (Tree.encodeEntries es ++ 101 :: rest)
          (r.observe previous seen k) (hes (k, t) (by simp)) (by omega)
        rw [List.length_append] at hfuel
        obtain ⟨r', hloop⟩ := hentries es depth (k :: seen) (some k) rest result
          (fun e he => hes e (by simp [he])) (by omega)
        refine ⟨r', ?_⟩
        rw [inspectItems, if_neg hstart, if_pos rfl,
          inspectAtom_of hread (show (Object.bytes k).Canonical from trivial)]
        simp only [contentOf, hval]
        exact hloop
    · intro ts depth seen previous rest r hts hfuel
      cases ts with
      | nil => exact ⟨r, by simp [inspectItems, Tree.encodeList]⟩
      | cons t ts =>
        have hinput : Tree.encodeList (t :: ts) ++ 101 :: rest =
            t.encode ++ (Tree.encodeList ts ++ 101 :: rest) := by
          simp [Tree.encodeList]
        obtain ⟨b, tail, hhead, hb⟩ := Tree.head_ne_e t
        have hstart : ¬ (t.encode ++ (Tree.encodeList ts ++ 101 :: rest)).head? = some 101 := by
          rw [hhead]
          simpa using hb
        rw [hinput] at hfuel ⊢
        have htpos := encode_pos t
        obtain ⟨result, hval⟩ := hvalue t (depth + 1) (Tree.encodeList ts ++ 101 :: rest) r
          (hts t (by simp)) (by omega)
        rw [List.length_append] at hfuel
        obtain ⟨r', hloop⟩ := hlist ts depth seen previous rest result
          (fun u hu => hts u (by simp [hu])) (by omega)
        refine ⟨r', ?_⟩
        rw [inspectItems, if_neg hstart, if_neg Bool.false_ne_true]
        simp only [hval]
        exact hloop

/-! ## No panic -/

/-- Read to the end, or stopped by a malformed part or by the depth limit. -/
def Inspected {α : Type} (r : Except (Fault InspectionStatus) α) : Prop :=
  (∃ a, r = .ok a) ∨ r = .error (.refused .malformed) ∨ r = .error (.refused .depthLimit)

theorem Inspected.error {α γ : Type} {e : Fault InspectionStatus}
    (h : Inspected (.error e : Except (Fault InspectionStatus) α)) :
    Inspected (.error e : Except (Fault InspectionStatus) γ) := by
  rcases h with ⟨a, ha⟩ | he | he
  · cases ha
  · cases he
    exact .inr (.inl rfl)
  · cases he
    exact .inr (.inr rfl)

/-- **No panic, and enough fuel.** -/
theorem inspect_settled (hread : ReadsAtoms next) : ∀ fuel : Nat,
    (∀ input depth r, 2 * input.length + 1 ≤ fuel →
      Inspected (inspectValue next limit fuel input depth r).1) ∧
    ∀ dictionary input depth seen previous r, 2 * input.length + 2 ≤ fuel →
      Inspected (inspectItems next limit fuel dictionary input depth seen previous r).1
  | 0 => by
    refine ⟨?_, ?_⟩
    · intro input depth r hfuel
      omega
    · intro dictionary input depth seen previous r hfuel
      omega
  | fuel + 1 => by
    obtain ⟨hvalue, hitems⟩ := inspect_settled hread fuel
    obtain ⟨svalue, sentries, slist⟩ := @inspect_sound _ _ limit hread fuel
    have hhead : ∀ dictionary input depth seen previous r rest r',
        inspectItems next limit fuel dictionary input depth seen previous r = (.ok rest, r') →
        rest.head? = some 101 := by
      intro dictionary input depth seen previous r rest r' h
      cases dictionary with
      | true =>
        obtain ⟨es, -, -, hhead, -⟩ := sentries _ _ _ _ _ _ _ h
        exact hhead
      | false =>
        obtain ⟨ts, -, -, hhead, -⟩ := slist _ _ _ _ _ _ _ h
        exact hhead
    refine ⟨?_, ?_⟩
    · intro input depth r hfuel
      rw [inspectValue]
      split
      · rename_i hstart
        split
        · exact .inr (.inr rfl)
        · cases input with
          | nil => simp at hstart
          | cons b start =>
            simp only [skipOne]
            have hloop := hitems (decide ((b :: start).head? = some 100)) start depth [] none r
              (by rw [List.length_cons] at hfuel; omega)
            split
            · rename_i e result hrun
              exact (hrun ▸ hloop).error
            · rename_i rest result hrun
              cases rest with
              | nil => cases hhead _ _ _ _ _ _ _ _ hrun
              | cons c rest => exact .inl ⟨rest, rfl⟩
      · rcases inspectAtom_cases hread input with ⟨o, tail, -, -, hatom⟩ | herr
        · rw [hatom]
          exact .inl ⟨tail, rfl⟩
        · rw [herr]
          exact .inr (.inl rfl)
    · intro dictionary input depth seen previous r hfuel
      -- After a value is read, the rest of the input is shorter.
      have hrest : ∀ (input' : List UInt8) (r₀ : KeyInspection) (seen' : List (List UInt8))
          (previous' : Option (List UInt8)), input'.length ≤ input.length →
          2 * input'.length + 1 ≤ fuel →
          (∀ e result, inspectValue next limit fuel input' (depth + 1) r₀ = (.error e, result) →
            Inspected (Except.error e : Except (Fault InspectionStatus) (List UInt8))) ∧
          ∀ rest result, inspectValue next limit fuel input' (depth + 1) r₀ = (.ok rest, result) →
            Inspected (inspectItems next limit fuel dictionary rest depth seen' previous' result).1 := by
        intro input' r₀ seen' previous' hle hfuel'
        refine ⟨fun e result hrun => ?_, fun rest result hrun => ?_⟩
        · exact (hrun ▸ hvalue input' (depth + 1) r₀ hfuel').error
        · obtain ⟨t, -, rfl, -⟩ := svalue _ _ _ _ _ hrun
          have htpos := encode_pos t
          rw [List.length_append] at hle
          exact hitems _ _ _ _ _ _ (by omega)
      rw [inspectItems]
      split
      · exact .inl ⟨_, rfl⟩
      · split
        · rcases inspectAtom_cases hread input with ⟨o, tail, -, hin, hatom⟩ | herr
          · rw [hatom]
            cases o with
            | integer text => exact .inr (.inl rfl)
            | bytes key =>
              have hpos := encodeBytes_pos key
              rw [Object.encode] at hin
              have hlen : input.length = (encodeBytes key).length + tail.length := by
                rw [hin, List.length_append]
              simp only [contentOf]
              split
              · rename_i e result hrun
                exact (hrest _ _ [] none (by omega) (by omega)).1 e result hrun
              · rename_i rest result hrun
                exact (hrest _ _ _ _ (by omega) (by omega)).2 rest result hrun
          · rw [herr]
            exact .inr (.inl rfl)
        · split
          · rename_i e result hrun
            exact (hrest _ _ [] none le_rfl (by omega)).1 e result hrun
          · rename_i rest result hrun
            exact (hrest _ _ _ _ le_rfl (by omega)).2 rest result hrun

/-! ## Inspections -/

/-- The report of an inspection within the size limit. -/
theorem inspect_report (hread : ReadsAtoms next) {input : List UInt8} {headerLimit : Nat}
    (depth : Nat) (hsize : input.length ≤ min headerLimit 4096) :
    ∃ outcome result, Inspected outcome ∧
      inspectValue next (min depth 64) (2 * input.length + 1) input 0 ⟨false, false, .complete⟩ =
        (outcome, result) ∧
      inspect next input headerLimit depth = .ok { result with
        inspectionStatus :=
          match outcome with
          | .error (.refused status) => status
          | .error _ => .malformed
          | .ok rest => if rest = [] then .complete else .malformed } := by
  have hsettled := (@inspect_settled _ _ (min depth 64) hread (2 * input.length + 1)).1 input 0
    ⟨false, false, .complete⟩ le_rfl
  rcases hrun : inspectValue next (min depth 64) (2 * input.length + 1) input 0
    ⟨false, false, .complete⟩ with ⟨outcome, result⟩
  rw [hrun] at hsettled
  refine ⟨outcome, result, hsettled, rfl, ?_⟩
  unfold inspect
  simp only
  rw [if_neg (by omega), hrun]
  rcases hsettled with ⟨rest, hrest⟩ | he | he
  · cases hrest
    cases rest <;> rfl
  · cases he
    rfl
  · cases he
    rfl

/-- An inspection ends in a report. -/
theorem inspect_ends (hread : ReadsAtoms next) (input : List UInt8) (headerLimit depth : Nat) :
    ∃ result, inspect next input headerLimit depth = .ok result := by
  by_cases hsize : input.length ≤ min headerLimit 4096
  · obtain ⟨outcome, result, -, -, hreport⟩ := inspect_report hread depth hsize
    exact ⟨_, hreport⟩
  · unfold inspect
    exact ⟨_, if_pos (by omega)⟩

/-- **A complete inspection**: the input is one value within the limits, and the flags say whether
its keys are in order and distinct. -/
theorem inspect_complete_iff (hread : ReadsAtoms next) {input : List UInt8} {headerLimit depth : Nat}
    {u d : Bool} (hsize : input.length ≤ min headerLimit 4096) :
    inspect next input headerLimit depth = .ok ⟨u, d, .complete⟩ ↔
      ∃ t, Scannable (min depth 64) 0 t ∧ input = t.encode ∧
        (u = false ↔ t.Ascending) ∧ (d = false ↔ t.Distinct) := by
  obtain ⟨outcome, result, hinspected, hrun, hreport⟩ := inspect_report hread depth hsize
  rw [hreport, Except.ok.injEq]
  constructor
  · intro h
    rcases hinspected with ⟨rest, rfl⟩ | rfl | rfl
    · by_cases hrest : rest = []
      · subst hrest
        cases h
        obtain ⟨t, ht, hin, hmarks⟩ := (inspect_sound hread _).1 _ _ _ _ _ hrun
        rw [List.append_nil] at hin
        exact ⟨t, ht, hin, by simpa using hmarks.unsorted, by simpa using hmarks.duplicate⟩
      · simp [hrest] at h
    · cases h
    · cases h
  · rintro ⟨t, ht, rfl, hu, hd⟩
    obtain ⟨r', hcomplete⟩ := (@inspect_complete _ _ (min depth 64) hread
      (2 * t.encode.length + 1)).1 t 0 [] ⟨false, false, .complete⟩ ht (by rw [List.append_nil])
    rw [List.append_nil, hrun] at hcomplete
    cases hcomplete
    obtain ⟨t', ht', hin, hmarks⟩ := (inspect_sound hread _).1 _ _ _ _ _ hrun
    have heq : t = t' := (Tree.encode_append_inj ht.canonical ht'.canonical
      ((List.append_nil _).trans hin)).1
    subst heq
    have hu' : result.unsortedKeys = u := by
      have h := hmarks.unsorted
      have : result.unsortedKeys = false ↔ u = false := by
        rw [h, hu]
        simp
      cases u <;> simpa using this
    have hd' : result.duplicateKeys = d := by
      have h := hmarks.duplicate
      have : result.duplicateKeys = false ↔ d = false := by
        rw [h, hd]
        simp
      cases d <;> simpa using this
    rw [← hu', ← hd']
    rfl

end Spec

end BtSniffer
