import BtSniffer.Wire.OrderingSpec

/-!
# The normalizers accept every value

* `read_complete` — every readable value at the start of an input is read.
* `read_settled` — there is no panic, and twice the length of the input is enough fuel.
* `normalizeWith_ok_iff`, `normalizeWith_settled` — what a normalizer accepts, and what it prints.
-/

set_option autoImplicit false

namespace BtSniffer

open Bencode

section Reader

variable {β ε : Type} {next : NextObject β} {refusals : Refusals β ε} {limit : Nat}

theorem encode_pos (t : Tree) : 0 < t.encode.length := by
  obtain ⟨b, rest, he, -⟩ := Tree.head_ne_e t
  simp [he]

theorem encodeBytes_pos (k : List UInt8) : 0 < (encodeBytes k).length := by
  simp [encodeBytes]

/-- **Completeness**, by induction on the fuel. -/
theorem read_complete (hread : ReadsAtoms next) : ∀ fuel : Nat,
    (∀ t depth rest, Readable limit depth t → 2 * (t.encode ++ rest).length + 1 ≤ fuel →
      readValue next refusals limit fuel (t.encode ++ rest) depth =
        .ok (Value.ofTree t.normal, rest)) ∧
    (∀ (es : List (List UInt8 × Tree)) depth l rest, (∀ e ∈ es, Readable limit (depth + 1) e.2) →
      (es.map Prod.fst).Nodup → (∀ e ∈ es, e.1 ∉ l.map Prod.fst) →
      2 * (Tree.encodeEntries es ++ 101 :: rest).length + 2 ≤ fuel →
      readEntries next refusals limit fuel (Tree.encodeEntries es ++ 101 :: rest) depth
        (Value.ofEntries l) = .ok (Value.ofEntries (collect l es), 101 :: rest)) ∧
    (∀ (ts : List Tree) depth rest, (∀ t ∈ ts, Readable limit (depth + 1) t) →
      2 * (Tree.encodeList ts ++ 101 :: rest).length + 2 ≤ fuel →
      readList next refusals limit fuel (Tree.encodeList ts ++ 101 :: rest) depth =
        .ok (Value.ofList (ts.map Tree.normal), 101 :: rest))
  | 0 => by
    refine ⟨?_, ?_, ?_⟩
    · intro t depth rest _ hfuel
      omega
    · intro es depth l rest _ _ _ hfuel
      omega
    · intro ts depth rest _ hfuel
      omega
  | fuel + 1 => by
    obtain ⟨hvalue, hentries, hlist⟩ := read_complete hread fuel
    refine ⟨?_, ?_, ?_⟩
    · intro t depth rest ht hfuel
      rw [readValue]
      cases t with
      | atom o =>
        obtain ⟨b, tail, hhead, hb⟩ := Tree.head_object o
        have hstart : ¬ (((Tree.atom o).encode ++ rest).head? = some 100 ∨
            ((Tree.atom o).encode ++ rest).head? = some 108) := by
          rw [Tree.encode, hhead]
          simp only [List.cons_append, List.head?_cons, Option.some.injEq]
          rintro (rfl | rfl) <;> exact absurd hb (by decide)
        have ho : o.Canonical := by
          cases ht.canonical with | atom h => exact h
        rw [if_neg hstart, Tree.encode, readAtom_of hread ho rest]
        rfl
      | dict es =>
        obtain ⟨hlt, hnodup, hes⟩ := readable_dict.1 ht
        have hbody : (Tree.dict es).encode ++ rest =
            100 :: (Tree.encodeEntries es ++ 101 :: rest) := by simp [Tree.encode]
        rw [hbody] at hfuel ⊢
        rw [if_pos (.inl rfl), if_neg (by omega), if_pos List.head?_cons]
        have hloop := hentries es depth [] rest hes hnodup (fun e _ => by simp)
          (by rw [List.length_cons] at hfuel; omega)
        change (readEntries next refusals limit fuel (Tree.encodeEntries es ++ 101 :: rest) depth
          (Value.ofEntries []) >>= fun x => skipOne x.2 >>= fun rest =>
            .ok (Value.dict x.1, rest)) = _
        rw [hloop, ← ofTree_dict hnodup]
        rfl
      | list ts =>
        obtain ⟨hlt, hts⟩ := readable_list.1 ht
        have hbody : (Tree.list ts).encode ++ rest =
            108 :: (Tree.encodeList ts ++ 101 :: rest) := by simp [Tree.encode]
        rw [hbody] at hfuel ⊢
        rw [if_pos (.inr rfl), if_neg (by omega), if_neg (by simp)]
        have hloop := hlist ts depth rest hts (by rw [List.length_cons] at hfuel; omega)
        change (readList next refusals limit fuel (Tree.encodeList ts ++ 101 :: rest) depth >>=
          fun x => skipOne x.2 >>= fun rest => .ok (Value.list x.1, rest)) = _
        rw [hloop, ← ofTree_list ts]
        rfl
    · intro es depth l rest hes hnodup hnew hfuel
      rw [readEntries]
      cases es with
      | nil => rfl
      | cons e es =>
        obtain ⟨k, t⟩ := e
        have hinput : Tree.encodeEntries ((k, t) :: es) ++ 101 :: rest =
            (Object.bytes k).encode ++ (t.encode ++ (Tree.encodeEntries es ++ 101 :: rest)) := by
          simp [Tree.encodeEntries, Object.encode]
        obtain ⟨b, ds, hds, hdigit⟩ := Tree.digit_of_decimal k.length
        have hstart : ¬ (Tree.encodeEntries ((k, t) :: es) ++ 101 :: rest).head? = some 101 := by
          rw [hinput]
          simp only [Object.encode, encodeBytes, hds, List.cons_append, List.head?_cons,
            Option.some.injEq]
          rintro rfl
          exact absurd hdigit (by decide)
        have hpos := encodeBytes_pos k
        rw [hinput] at hfuel
        rw [List.length_append, Object.encode] at hfuel
        rw [if_neg hstart, hinput, readAtom_of hread (show (Object.bytes k).Canonical from trivial)]
        obtain ⟨hk, hnodup'⟩ := List.nodup_cons.1 hnodup
        have hfresh : k ∉ l.map Prod.fst := hnew (k, t) (by simp)
        have hmiss : containsKey (Value.ofEntries l) k = false := by
          rw [Bool.eq_false_iff]
          intro hc
          exact hfresh ((containsKey_ofEntries l k).1 hc)
        have hval := hvalue t (depth + 1) (Tree.encodeEntries es ++ 101 :: rest)
          (hes (k, t) (by simp)) (by omega)
        have hkeys := keys_orderedInsert l (k, t)
        have hloop := hentries es depth (l.orderedInsert Tree.byKey (Tree.normalEntry (k, t))) rest
          (fun e he => hes e (by simp [he])) hnodup' (by
            intro e he hmem
            rcases List.mem_cons.1 (hkeys.mem_iff.1 hmem) with heq | hmem
            · exact hk (List.mem_map.2 ⟨e, he, heq⟩)
            · exact hnew e (by simp [he]) hmem)
          (by
            rw [List.length_append] at hfuel
            have := encode_pos t
            omega)
        change (if containsKey (Value.ofEntries l) k = true then _ else _) = _
        rw [hmiss]
        simp only [Bool.false_eq_true, if_false, hval]
        change readEntries next refusals limit fuel _ depth
          (insertEntry (k, encodeBytes k, Value.ofTree t.normal) _) = _
        rw [insertEntry_ofEntries k t.normal l hfresh]
        exact hloop
    · intro ts depth rest hts hfuel
      rw [readList]
      cases ts with
      | nil => rfl
      | cons t ts =>
        have hinput : Tree.encodeList (t :: ts) ++ 101 :: rest =
            t.encode ++ (Tree.encodeList ts ++ 101 :: rest) := by
          simp [Tree.encodeList]
        obtain ⟨b, tail, hhead, hb⟩ := Tree.head_ne_e t
        have hstart : ¬ (Tree.encodeList (t :: ts) ++ 101 :: rest).head? = some 101 := by
          rw [hinput, hhead]
          simpa using hb
        rw [hinput] at hfuel
        rw [if_neg hstart, hinput]
        have hval := hvalue t (depth + 1) (Tree.encodeList ts ++ 101 :: rest) (hts t (by simp))
          (by omega)
        have hloop := hlist ts depth rest (fun u hu => hts u (by simp [hu])) (by
          rw [List.length_append] at hfuel
          have := encode_pos t
          omega)
        rw [hval]
        change (readList next refusals limit fuel (Tree.encodeList ts ++ 101 :: rest) depth >>=
          fun x => .ok (Value.ofTree t.normal :: x.1, x.2)) = _
        rw [hloop]
        rfl

/-- A result, or a refusal: no panic, and enough fuel. -/
def Settled {α : Type} (r : Except (Fault ε) α) : Prop :=
  (∃ a, r = .ok a) ∨ ∃ e, r = .error (.refused e)

theorem settled_bind {α γ : Type} {x : Except (Fault ε) α} {f : α → Except (Fault ε) γ}
    (hx : Settled x) (hf : ∀ a, x = .ok a → Settled (f a)) : Settled (x >>= f) := by
  rcases hx with ⟨a, rfl⟩ | ⟨e, rfl⟩
  · exact hf a rfl
  · exact .inr ⟨e, rfl⟩

theorem settled_ok {α : Type} (a : α) : Settled (.ok a : Except (Fault ε) α) := .inl ⟨a, rfl⟩

theorem settled_refused {α : Type} (e : ε) : Settled (.error (.refused e) : Except (Fault ε) α) :=
  .inr ⟨e, rfl⟩

theorem settled_skip {b : UInt8} {input : List UInt8} (h : input.head? = some b) :
    Settled (skipOne input : Except (Fault ε) (List UInt8)) := by
  cases input with
  | nil => cases h
  | cons c rest => exact settled_ok rest

theorem settled_atom (hread : ReadsAtoms next) (input : List UInt8) :
    Settled (readAtom next refusals input) := by
  rcases readAtom_cases hread input with ⟨o, rest, -, -, hr⟩ | ⟨e, he⟩
  · exact .inl ⟨_, hr⟩
  · exact .inr ⟨e, he⟩

/-- **No panic, and enough fuel**: every turn consumes a byte, or is followed by one that does. -/
theorem read_settled (hread : ReadsAtoms next) : ∀ fuel : Nat,
    (∀ input depth, 2 * input.length + 1 ≤ fuel →
      Settled (readValue next refusals limit fuel input depth)) ∧
    (∀ input depth l, 2 * input.length + 2 ≤ fuel → (l.map Prod.fst).Nodup →
      Settled (readEntries next refusals limit fuel input depth (Value.ofEntries l))) ∧
    (∀ input depth, 2 * input.length + 2 ≤ fuel →
      Settled (readList next refusals limit fuel input depth))
  | 0 => by
    refine ⟨?_, ?_, ?_⟩
    · intro input depth hfuel
      omega
    · intro input depth l hfuel
      omega
    · intro input depth hfuel
      omega
  | fuel + 1 => by
    obtain ⟨hvalue, hentries, hlist⟩ := read_settled hread fuel
    obtain ⟨svalue, sentries, slist⟩ := @read_sound _ _ _ refusals limit hread fuel
    refine ⟨?_, ?_, ?_⟩
    · intro input depth hfuel
      rw [readValue]
      split
      · rename_i hstart
        split
        · exact settled_refused _
        · split
          · rename_i hdict
            refine settled_bind (settled_skip hdict) (fun start hskip => ?_)
            obtain ⟨b, rfl⟩ := skipOne_ok hskip
            refine settled_bind (hentries start depth [] (by rw [List.length_cons] at hfuel; omega)
              List.nodup_nil) ?_
            rintro ⟨entries, after⟩ hloop
            obtain ⟨es, -, -, -, -, hhead, -⟩ := sentries start depth [] _ _ hloop List.nodup_nil
            exact settled_bind (settled_skip hhead) (fun _ _ => settled_ok _)
          · rename_i hnot
            have hl := hstart.resolve_left hnot
            refine settled_bind (settled_skip hl) (fun start hskip => ?_)
            obtain ⟨b, rfl⟩ := skipOne_ok hskip
            refine settled_bind (hlist start depth (by rw [List.length_cons] at hfuel; omega)) ?_
            rintro ⟨values, after⟩ hloop
            obtain ⟨ts, -, -, hhead, -⟩ := slist start depth _ _ hloop
            exact settled_bind (settled_skip hhead) (fun _ _ => settled_ok _)
      · exact settled_bind (settled_atom hread input) (fun _ _ => settled_ok _)
    · intro input depth l hfuel hl
      rw [readEntries]
      split
      · exact settled_ok _
      · refine settled_bind (settled_atom hread input) ?_
        rintro ⟨⟨encodedKey, content⟩, afterKey⟩ hatom
        obtain ⟨o, tail, ho, rfl, hr⟩ := readAtom_ok hread hatom
        cases hr
        cases o with
        | integer text => exact settled_refused _
        | bytes key =>
          simp only [contentOf]
          split
          · exact settled_refused _
          · rename_i hfresh
            rw [containsKey_ofEntries] at hfresh
            have hpos := encodeBytes_pos key
            rw [List.length_append, Object.encode] at hfuel
            refine settled_bind (hvalue _ _ (by omega)) ?_
            rintro ⟨value, after⟩ hval
            obtain ⟨t, -, rfl, rfl⟩ := svalue _ _ _ _ hval
            rw [List.length_append] at hfuel
            have htpos := encode_pos t
            change Settled (readEntries next refusals limit fuel after depth
              (insertEntry (key, encodeBytes key, Value.ofTree t.normal) _))
            rw [insertEntry_ofEntries key t.normal l hfresh]
            exact hentries _ _ _ (by omega) ((keys_orderedInsert l (key, t)).nodup_iff.2
              (List.nodup_cons.2 ⟨hfresh, hl⟩))
    · intro input depth hfuel
      rw [readList]
      split
      · exact settled_ok _
      · refine settled_bind (hvalue _ _ (by omega)) ?_
        rintro ⟨value, after⟩ hval
        obtain ⟨t, -, rfl, -⟩ := svalue _ _ _ _ hval
        rw [List.length_append] at hfuel
        have htpos := encode_pos t
        exact settled_bind (hlist _ _ (by omega)) (fun _ _ => settled_ok _)

/-! ## Normalizers -/

/-- **A normalizer accepts exactly the encodings of readable values** and prints their normal form. -/
theorem normalizeWith_ok_iff (hread : ReadsAtoms next) {trailing : ε} {input out : List UInt8} :
    normalizeWith next refusals limit trailing input = .ok out ↔
      ∃ t, Readable limit 0 t ∧ input = t.encode ∧ out = t.normal.encode := by
  unfold normalizeWith
  constructor
  · intro h
    obtain ⟨⟨v, remaining⟩, hvalue, hbody⟩ := except_bind_ok h
    simp only at hbody
    split at hbody
    · cases hbody
    · rename_i hrest
      cases hbody
      obtain ⟨t, ht, hin, rfl⟩ := (read_sound hread _).1 _ _ _ _ hvalue
      rw [not_not.1 hrest, List.append_nil] at hin
      exact ⟨t, ht, hin, Value.write_ofTree _⟩
  · rintro ⟨t, ht, rfl, rfl⟩
    have hvalue := (@read_complete _ _ _ refusals limit hread (2 * t.encode.length + 1)).1 t 0 [] ht
      (by rw [List.append_nil])
    rw [List.append_nil] at hvalue
    rw [hvalue]
    simp only [bind, Except.bind, ne_eq, not_true_eq_false, if_false, Value.write_ofTree]

theorem normalizeWith_settled (hread : ReadsAtoms next) (trailing : ε) (input : List UInt8) :
    Settled (normalizeWith next refusals limit trailing input) := by
  unfold normalizeWith
  refine settled_bind ((read_settled hread _).1 input 0 (le_refl _)) ?_
  rintro ⟨v, remaining⟩ -
  simp only
  split
  · exact settled_refused _
  · exact settled_ok _

end Reader

/-- The atoms of the library's reader, as Bendy reports them. -/
def nextAtom : NextObject Unit := fun input => .ok ((readObject input).map BendyObject.ofObject)

theorem readsAtoms_nextAtom : ReadsAtoms nextAtom := by
  intro input o
  rw [← readObject_eq_some]
  unfold nextAtom
  rw [Except.ok.injEq, Option.map_eq_some_iff]
  constructor
  · rintro ⟨o', ho', he⟩
    cases o <;> cases o' <;> cases he <;> exact ho'
  · exact fun h => ⟨o, h, rfl⟩

end BtSniffer
