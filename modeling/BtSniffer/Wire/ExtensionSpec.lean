import BtSniffer.Wire.Extension

/-!
# The compatible path agrees with strict parsing

* `extensionNormalize_ok_iff` — what the normalizer of handshakes accepts.
* `strict_sound`, `strict_invalid` — when a handshake is refused as an invalid dictionary.
* `extension_compatibility` — the two normalizers, the inspector and the two parsers agree.
-/

set_option autoImplicit false

namespace BtSniffer

open Bencode

/-- An encoding with strictly increasing keys in every dictionary. -/
def StrictlySorted (bytes : List UInt8) : Prop :=
  ∃ t : Tree, t.Canonical ∧ t.Sorted ∧ bytes = t.encode

theorem dict_of_head {t : Tree} (h : t.encode.head? = some 100) : ∃ es, t = .dict es := by
  cases t with
  | atom o =>
    obtain ⟨b, tail, hhead, hb⟩ := Tree.head_object o
    rw [Tree.encode, hhead, List.head?_cons, Option.some.injEq] at h
    subst h
    exact absurd hb (by decide)
  | list ts => simp [Tree.encode] at h
  | dict es => exact ⟨es, rfl⟩

theorem normal_encode_eq_iff {t : Tree} (hc : t.Canonical) (hd : t.Distinct) :
    t.normal.encode = t.encode ↔ t.Sorted := by
  constructor
  · intro h
    rw [← encode_inj (Tree.canonical_normal hc) hc h]
    exact Tree.sorted_normal hd
  · intro h
    rw [Tree.normal_of_sorted h]

section

variable {β : Type} {decoder : Bendy β} {bytes : List UInt8} {headerLimit depth : Nat}

/-! ## Normalizer -/

theorem extensionNormalize_ok_iff (hread : ReadsAtoms decoder.next) {out : List UInt8} :
    extensionNormalize decoder bytes headerLimit depth = .ok out ↔
      bytes.length ≤ min headerLimit 4096 ∧ ∃ es, Readable (min depth 64) 0 (.dict es) ∧
        bytes = (Tree.dict es).encode ∧ out = (Tree.dict es).normal.encode := by
  unfold extensionNormalize
  split
  · rename_i hrefused
    constructor
    · intro h
      cases h
    · rintro ⟨hsize, es, -, rfl, -⟩
      rcases hrefused with hlong | hhead
      · omega
      · exact absurd (by simp [Tree.encode]) hhead
  · rename_i haccept
    obtain ⟨hsize, hhead⟩ := not_or.1 haccept
    rw [normalizeWith_ok_iff hread]
    constructor
    · rintro ⟨t, ht, rfl, rfl⟩
      obtain ⟨es, rfl⟩ := dict_of_head (not_not.1 hhead)
      exact ⟨by omega, es, ht, rfl, rfl⟩
    · rintro ⟨-, es, hes, hin, hout⟩
      exact ⟨.dict es, hes, hin, hout⟩

/-! ## Fields -/

theorem endOfPairs_ok {kind : WireErrorKind} {stop : Option β} {update update' : ExtensionUpdate}
    (h : endOfPairs decoder kind stop update = .ok update') : update' = update := by
  cases stop with
  | none =>
    cases h
    rfl
  | some e => cases h

theorem readExtension_mode {name : List UInt8} {value : BendyValue β}
    {update update' : ExtensionUpdate} (h : readExtension decoder name value update = .ok update') :
    update'.mode = update.mode := by
  unfold readExtension at h
  split at h
  · obtain ⟨id, -, hid⟩ := except_bind_ok h
    cases hid
    rfl
  · cases h
    rfl

theorem readExtensions_mode {stop : Option β} : ∀ (pairs : List (List UInt8 × BendyValue β))
    {update update' : ExtensionUpdate}, readExtensions decoder stop pairs update = .ok update' →
    update'.mode = update.mode
  | [], update, update', h => by rw [endOfPairs_ok h]
  | (name, value) :: rest, update, update', h => by
    obtain ⟨update₁, hpair, hrest⟩ := except_bind_ok h
    rw [readExtensions_mode rest hrest, readExtension_mode hpair]

theorem readField_mode {key : List UInt8} {value : BendyValue β} {update update' : ExtensionUpdate}
    (h : readField decoder key value update = .ok update') : update'.mode = update.mode := by
  unfold readField at h
  split at h
  · split at h
    · exact readExtensions_mode _ h
    · cases h
  · split at h
    · obtain ⟨size, -, hsize⟩ := except_bind_ok h
      cases hsize
      rfl
    · cases h
      rfl

theorem readHandshake_mode {stop : Option β} : ∀ (pairs : List (List UInt8 × BendyValue β))
    {update update' : ExtensionUpdate}, readHandshake decoder stop pairs update = .ok update' →
    update'.mode = update.mode
  | [], update, update', h => by rw [endOfPairs_ok h]
  | (key, value) :: rest, update, update', h => by
    obtain ⟨update₁, hpair, hrest⟩ := except_bind_ok h
    rw [readHandshake_mode rest hrest, readField_mode hpair]

/-- Strict parsing marks its result as strict. -/
theorem readFields_mode {raw : List UInt8} {update : ExtensionUpdate}
    (h : readFields decoder raw depth = .ok update) : update.mode = .strict := by
  unfold readFields at h
  split at h
  · cases h
  · cases h
  · exact readHandshake_mode _ h
  · cases h

/-! ## Kinds of errors -/

/-- Not an error of the raw scan. -/
def AfterScan {α : Type} (r : Except WireError α) : Prop :=
  ∀ e, r = .error e → e.kind ≠ .invalidDictionary

theorem afterScan_ok {α : Type} (a : α) : AfterScan (.ok a : Except WireError α) := by
  intro e h
  cases h

theorem afterScan_of {α : Type} {kind : WireErrorKind} (h : kind ≠ .invalidDictionary) :
    AfterScan (.error (.of kind) : Except WireError α) := by
  intro e he
  cases he
  exact h

theorem afterScan_bendy {α : Type} {kind : WireErrorKind} {error : β}
    (h : kind ≠ .invalidDictionary) :
    AfterScan (.error (.bendy decoder kind error) : Except WireError α) := by
  intro e he
  cases he
  exact h

theorem afterScan_bind {α γ : Type} {x : Except WireError α} {f : α → Except WireError γ}
    (hx : AfterScan x) (hf : ∀ a, AfterScan (f a)) : AfterScan (x >>= f) := by
  intro e h
  cases x with
  | error e' =>
    cases h
    exact hx e rfl
  | ok a => exact hf a e h

theorem afterScan_end {kind : WireErrorKind} (h : kind ≠ .invalidDictionary) (stop : Option β)
    (update : ExtensionUpdate) : AfterScan (endOfPairs decoder kind stop update) := by
  cases stop with
  | none => exact afterScan_ok update
  | some e => exact afterScan_bendy h

theorem afterScan_integer (value : BendyValue β) : AfterScan (integer decoder value) := by
  unfold integer
  split
  · split
    · exact afterScan_ok _
    · exact afterScan_of (by decide)
  · exact afterScan_bendy (by decide)

theorem afterScan_extension (name : List UInt8) (value : BendyValue β) (update : ExtensionUpdate) :
    AfterScan (readExtension decoder name value update) := by
  unfold readExtension extensionId
  split
  · refine afterScan_bind (afterScan_bind (afterScan_integer value) (fun number => ?_))
      (fun _ => afterScan_ok _)
    split
    · exact afterScan_ok _
    · exact afterScan_of (by decide)
  · exact afterScan_ok _

theorem afterScan_extensions (stop : Option β) : ∀ (pairs : List (List UInt8 × BendyValue β))
    (update : ExtensionUpdate), AfterScan (readExtensions decoder stop pairs update)
  | [], update => afterScan_end (by decide) stop update
  | (name, value) :: rest, update =>
    afterScan_bind (afterScan_extension name value update) (afterScan_extensions stop rest)

theorem afterScan_field (key : List UInt8) (value : BendyValue β) (update : ExtensionUpdate) :
    AfterScan (readField decoder key value update) := by
  unfold readField metadataSize
  split
  · split
    · exact afterScan_extensions _ _ _
    · exact afterScan_bendy (by decide)
  · split
    · refine afterScan_bind (afterScan_bind (afterScan_integer value) (fun number => ?_))
        (fun _ => afterScan_ok _)
      split
      · exact afterScan_ok _
      · exact afterScan_of (by decide)
    · exact afterScan_ok _

theorem afterScan_handshake (stop : Option β) : ∀ (pairs : List (List UInt8 × BendyValue β))
    (update : ExtensionUpdate), AfterScan (readHandshake decoder stop pairs update)
  | [], update => afterScan_end (by decide) stop update
  | (key, value) :: rest, update =>
    afterScan_bind (afterScan_field key value update) (afterScan_handshake stop rest)

/-- The second pass finds no invalid dictionary. -/
theorem afterScan_fields (raw : List UInt8) : AfterScan (readFields decoder raw depth) := by
  unfold readFields
  split
  · exact afterScan_bendy (by decide)
  · exact afterScan_of (by decide)
  · exact afterScan_handshake _ _ _
  · exact afterScan_bendy (by decide)

/-! ## Strict parsing -/

theorem strict_ok {update : ExtensionUpdate}
    (h : parseExtensionStrict decoder bytes headerLimit depth = .ok update) :
    bytes.length ≤ headerLimit ∧ ∃ raw, decoder.intoRaw depth bytes = .ok raw ∧
      raw.length = bytes.length ∧ update.mode = .strict := by
  unfold parseExtensionStrict at h
  split at h
  · cases h
  · rename_i hsize
    split at h
    · cases h
    · rename_i raw hprefix
      split at h
      · cases h
      · rename_i hlen
        unfold dictionaryPrefix at hprefix
        split at hprefix
        · cases hprefix
        · cases hprefix
        · split at hprefix
          · cases hprefix
          · rename_i hraw
            cases hprefix
            refine ⟨by omega, raw, hraw, not_not.1 hlen, ?_⟩
            cases hfields : readFields decoder raw depth with
            | error e =>
              rw [hfields] at h
              cases h
            | ok update' =>
              rw [hfields] at h
              cases h
              exact readFields_mode hfields
        · cases hprefix

/-- **What strict parsing accepts is sorted** and within the limits. -/
theorem strict_sound (hscan : ScansDictionaries decoder) {update : ExtensionUpdate}
    (h : parseExtensionStrict decoder bytes headerLimit depth = .ok update) :
    bytes.length ≤ headerLimit ∧ ∃ es, (Tree.dict es).Canonical ∧ (Tree.dict es).Sorted ∧
      (Tree.dict es).Within depth ∧ bytes = (Tree.dict es).encode := by
  obtain ⟨hsize, raw, hraw, hlen, -⟩ := strict_ok h
  obtain ⟨es, rest, hc, hs, hw, rfl, rfl⟩ := (hscan.raw depth bytes raw).1 hraw
  have hrest : rest = [] := by
    rw [List.length_append] at hlen
    exact List.length_eq_zero_iff.1 (by omega)
  subst hrest
  exact ⟨hsize, es, hc, hs, hw, List.append_nil _⟩

/-- A sorted handshake is not refused as an invalid dictionary. -/
theorem strict_sorted (hscan : ScansDictionaries decoder) {es : List (List UInt8 × Tree)}
    (hc : (Tree.dict es).Canonical) (hs : (Tree.dict es).Sorted) (hw : (Tree.dict es).Within depth)
    {e : WireError} (h : parseExtensionStrict decoder (Tree.dict es).encode headerLimit depth =
      .error (.refused e)) : e.kind ≠ .invalidDictionary := by
  have hraw := (hscan.raw depth (Tree.dict es).encode (Tree.dict es).encode).2
    ⟨es, [], hc, hs, hw, rfl, (List.append_nil _).symm⟩
  have hdepth : 0 < depth := by
    cases depth with
    | zero => exact hw.elim
    | succ depth => omega
  have hopen : decoder.nextWithin depth (Tree.dict es).encode = .ok (some .dict) := by
    rw [Tree.encode]
    exact hscan.opens depth _ hdepth
  unfold parseExtensionStrict dictionaryPrefix at h
  rw [hopen] at h
  simp only [hraw, ne_eq, not_true_eq_false, if_false] at h
  split at h
  · cases h
    simp [WireError.of]
  · cases hfields : readFields decoder (Tree.dict es).encode depth with
    | error e' =>
      rw [hfields] at h
      cases h
      exact afterScan_fields _ e hfields
    | ok update =>
      rw [hfields] at h
      cases h

/-- An unsorted handshake within the limits is refused as an invalid dictionary. -/
theorem strict_invalid (hread : ReadsAtoms decoder.next) (hscan : ScansDictionaries decoder)
    {es : List (List UInt8 × Tree)} (hsize : (Tree.dict es).encode.length ≤ headerLimit)
    (hdepth : 0 < depth) (hc : (Tree.dict es).Canonical) (hs : ¬ (Tree.dict es).Sorted) :
    ∃ e, parseExtensionStrict decoder (Tree.dict es).encode headerLimit depth =
      .error (.refused e) ∧ e.kind = .invalidDictionary := by
  have hopen : decoder.nextWithin depth (Tree.dict es).encode = .ok (some .dict) := by
    rw [Tree.encode]
    exact hscan.opens depth _ hdepth
  obtain ⟨inspection, hinspect⟩ := inspect_ends hread (Tree.dict es).encode headerLimit depth
  unfold parseExtensionStrict dictionaryPrefix
  rw [if_neg (by omega), hopen]
  cases hraw : decoder.intoRaw depth (Tree.dict es).encode with
  | error e =>
    simp only [inspected, WireError.bendy, if_true, hinspect]
    exact ⟨_, rfl, rfl⟩
  | ok raw =>
    obtain ⟨es', rest, hc', hs', -, rfl, hin⟩ := (hscan.raw _ _ _).1 hraw
    have heq := (Tree.encode_append_inj hc hc' ((List.append_nil _).trans hin)).1
    exact absurd (heq ▸ hs') hs

/-! ## Both paths -/

/-- How a handshake is accepted. -/
theorem parse_ok_iff {update : ExtensionUpdate} :
    parseExtension decoder bytes headerLimit depth = .ok update ↔
      parseExtensionStrict decoder bytes headerLimit depth = .ok update ∨
      ∃ e c u, parseExtensionStrict decoder bytes headerLimit depth = .error (.refused e) ∧
        e.kind = .invalidDictionary ∧ extensionNormalize decoder bytes headerLimit depth = .ok c ∧
        parseExtensionStrict decoder c headerLimit depth = .ok u ∧
        update = { u with mode := .unsortedCompatible } := by
  unfold parseExtension
  constructor
  · intro h
    split at h
    · rename_i u hstrict
      cases h
      exact .inl hstrict
    · rename_i e hstrict
      split at h
      · rename_i hkind
        unfold parseCompatible at h
        split at h
        · rename_i c hnormalize
          split at h
          · rename_i u hu
            cases h
            exact .inr ⟨e, c, u, hstrict, hkind, hnormalize, hu, rfl⟩
          · cases h
          · cases h
        · cases h
        · cases h
        · cases h
      · cases h
    · cases h
  · rintro (hstrict | ⟨e, c, u, hstrict, hkind, hnormalize, hu, rfl⟩)
    · rw [hstrict]
    · rw [hstrict]
      simp only [hkind, if_true, parseCompatible, hnormalize, hu]

theorem strict_mode {update : ExtensionUpdate}
    (h : parseExtensionStrict decoder bytes headerLimit depth = .ok update) :
    update.mode = .strict := by
  obtain ⟨-, raw, -, -, hmode⟩ := strict_ok h
  exact hmode

theorem parse_strict_iff {update : ExtensionUpdate} :
    parseExtension decoder bytes headerLimit depth = .ok update ∧ update.mode = .strict ↔
      parseExtensionStrict decoder bytes headerLimit depth = .ok update := by
  rw [parse_ok_iff]
  constructor
  · rintro ⟨hstrict | ⟨e, c, u, -, -, -, -, rfl⟩, hmode⟩
    · exact hstrict
    · cases hmode
  · exact fun h => ⟨.inl h, strict_mode h⟩

/-- A handshake that can be normalized is refused as an invalid dictionary exactly if it is not
sorted. -/
theorem invalid_iff (hread : ReadsAtoms decoder.next) (hscan : ScansDictionaries decoder)
    {c : List UInt8} (h : extensionNormalize decoder bytes headerLimit depth = .ok c) :
    (∃ e, parseExtensionStrict decoder bytes headerLimit depth = .error (.refused e) ∧
      e.kind = .invalidDictionary) ↔ ¬ StrictlySorted bytes := by
  obtain ⟨hsize, es, hes, rfl, rfl⟩ := (extensionNormalize_ok_iff hread).1 h
  have hdepth : 0 < min depth 64 := (readable_dict.1 hes).1
  constructor
  · rintro ⟨e, he, hkind⟩ ⟨t, hc, hs, heq⟩
    have ht := encode_inj hes.canonical hc heq
    subst ht
    exact strict_sorted hscan hc hs (hes.within.mono (by omega)) he hkind
  · intro hs
    exact strict_invalid hread hscan (by omega) (by omega) hes.canonical
      (fun h => hs ⟨_, hes.canonical, h, rfl⟩)

theorem parse_compatible_iff (hread : ReadsAtoms decoder.next) (hscan : ScansDictionaries decoder)
    {update : ExtensionUpdate} :
    parseExtension decoder bytes headerLimit depth = .ok update ∧
        update.mode = .unsortedCompatible ↔
      ¬ StrictlySorted bytes ∧ ∃ c u, extensionNormalize decoder bytes headerLimit depth = .ok c ∧
        parseExtensionStrict decoder c headerLimit depth = .ok u ∧
        update = { u with mode := .unsortedCompatible } := by
  rw [parse_ok_iff]
  constructor
  · rintro ⟨hstrict | ⟨e, c, u, he, hkind, hc, hu, rfl⟩, hmode⟩
    · rw [strict_mode hstrict] at hmode
      cases hmode
    · exact ⟨(invalid_iff hread hscan hc).1 ⟨e, he, hkind⟩, c, u, hc, hu, rfl⟩
  · rintro ⟨hs, c, u, hc, hu, rfl⟩
    obtain ⟨e, he, hkind⟩ := (invalid_iff hread hscan hc).2 hs
    exact ⟨.inr ⟨e, c, u, he, hkind, hc, hu, rfl⟩, rfl⟩

/-! ## Permuted entries -/

/-- The handshake is accepted with these fields. -/
def AcceptedAs (decoder : Bendy β) (bytes : List UInt8) (headerLimit depth : Nat)
    (id size : Option Nat) : Prop :=
  ∃ update, parseExtension decoder bytes headerLimit depth = .ok update ∧
    update.metadataId = id ∧ update.metadataSize = size

/-- Only a dictionary without duplicate keys is accepted. -/
theorem AcceptedAs.distinct (hread : ReadsAtoms decoder.next) (hscan : ScansDictionaries decoder)
    {t : Tree} (hc : t.Canonical) {id size : Option Nat}
    (h : AcceptedAs decoder t.encode headerLimit depth id size) : t.Distinct := by
  obtain ⟨update, hparse, -, -⟩ := h
  rcases parse_ok_iff.1 hparse with hstrict | ⟨e, c, u, -, -, hnormalize, -, -⟩
  · obtain ⟨-, es, hces, hs, -, heq⟩ := strict_sound hscan hstrict
    rw [encode_inj hc hces heq]
    exact hs.distinct
  · obtain ⟨-, es, hes, heq, -⟩ := (extensionNormalize_ok_iff hread).1 hnormalize
    rw [encode_inj hc hes.canonical heq]
    exact hes.distinct

/-- **The fields are those of the sorted handshake.** -/
theorem acceptedAs_iff (hread : ReadsAtoms decoder.next) (hscan : ScansDictionaries decoder)
    (hdepth : depth ≤ 64) {t : Tree} (hc : t.Canonical) (hd : t.Distinct)
    (hsize : t.encode.length ≤ 4096) {id size : Option Nat} :
    AcceptedAs decoder t.encode headerLimit depth id size ↔
      ∃ u, parseExtensionStrict decoder t.normal.encode headerLimit depth = .ok u ∧
        u.metadataId = id ∧ u.metadataSize = size := by
  constructor
  · rintro ⟨update, hparse, hid, hms⟩
    rcases parse_ok_iff.1 hparse with hstrict | ⟨e, c, u, -, -, hnormalize, hu, rfl⟩
    · obtain ⟨-, es, hces, hs, -, heq⟩ := strict_sound hscan hstrict
      have ht := encode_inj hc hces heq
      subst ht
      rw [Tree.normal_of_sorted hs]
      exact ⟨update, hstrict, hid, hms⟩
    · obtain ⟨-, es, hes, heq, rfl⟩ := (extensionNormalize_ok_iff hread).1 hnormalize
      have ht := encode_inj hc hes.canonical heq
      subst ht
      exact ⟨u, hu, hid, hms⟩
  · rintro ⟨u, hu, hid, hms⟩
    by_cases hs : t.Sorted
    · rw [Tree.normal_of_sorted hs] at hu
      exact ⟨u, (parse_strict_iff.2 hu).1, hid, hms⟩
    · obtain ⟨hlimit, es, hces, -, hw, heq⟩ := strict_sound hscan hu
      have hnormal := encode_inj (Tree.canonical_normal hc) hces heq
      rw [← hnormal, Tree.within_normal] at hw
      have hdict : ∃ es', t = .dict es' := by
        cases t with
        | atom o => cases hnormal
        | list ts =>
          rw [Tree.normal_list] at hnormal
          cases hnormal
        | dict es' => exact ⟨es', rfl⟩
      obtain ⟨es', rfl⟩ := hdict
      have hlen := Tree.length_encode_normal (Tree.dict es')
      have hnormalize : extensionNormalize decoder (Tree.dict es').encode headerLimit depth =
          .ok (Tree.dict es').normal.encode :=
        (extensionNormalize_ok_iff hread).2 ⟨by omega, es', ⟨hc, hd, hw.mono (by omega)⟩, rfl, rfl⟩
      have hunsorted : ¬ StrictlySorted (Tree.dict es').encode := by
        rintro ⟨t', hc', hs', heq'⟩
        exact hs (encode_inj hc hc' heq' ▸ hs')
      exact ⟨_, ((parse_compatible_iff hread hscan).2 ⟨hunsorted, _, u, hnormalize, hu, rfl⟩).1, hid,
        hms⟩

/-- Handshakes that differ in the order of entries are accepted with the same fields. -/
theorem acceptedAs_same (hread : ReadsAtoms decoder.next) (hscan : ScansDictionaries decoder)
    (hdepth : depth ≤ 64) {t t' : Tree} (hsame : Tree.Same t t') (hc : t.Canonical)
    (hc' : t'.Canonical) (hsize : t.encode.length ≤ 4096) (hsize' : t'.encode.length ≤ 4096)
    (id size : Option Nat) :
    AcceptedAs decoder t.encode headerLimit depth id size ↔
      AcceptedAs decoder t'.encode headerLimit depth id size := by
  by_cases hd : t.Distinct
  · have hd' := hsame.distinct_iff.1 hd
    rw [acceptedAs_iff hread hscan hdepth hc hd hsize,
      acceptedAs_iff hread hscan hdepth hc' hd' hsize', hsame.normal_eq hd']
  · constructor
    · exact fun h => absurd (h.distinct hread hscan hc) hd
    · exact fun h => absurd (hsame.distinct_iff.2 (h.distinct hread hscan hc')) hd

/-! ## Agreement -/

theorem normalize_iff_inspect (hread : ReadsAtoms decoder.next) (hhead : bytes.head? = some 100)
    (hsize : bytes.length ≤ min headerLimit 4096) :
    (∃ c, extensionNormalize decoder bytes headerLimit depth = .ok c) ↔
      ∃ unsorted, inspect decoder.next bytes headerLimit depth = .ok ⟨unsorted, false, .complete⟩ := by
  classical
  constructor
  · rintro ⟨c, h⟩
    obtain ⟨-, es, hes, rfl, -⟩ := (extensionNormalize_ok_iff hread).1 h
    refine ⟨!decide (Tree.dict es).Ascending, (inspect_complete_iff hread hsize).2
      ⟨.dict es, ⟨hes.canonical, hes.within⟩, rfl, by simp, by simpa using hes.distinct⟩⟩
  · rintro ⟨unsorted, h⟩
    obtain ⟨t, ht, rfl, -, hd⟩ := (inspect_complete_iff hread hsize).1 h
    obtain ⟨es, rfl⟩ := dict_of_head hhead
    exact ⟨_, (extensionNormalize_ok_iff hread).2
      ⟨hsize, es, ⟨ht.canonical, hd.1 rfl, ht.within⟩, rfl, rfl⟩⟩

theorem normalize_eq_iff_sorted (hread : ReadsAtoms decoder.next) {c : List UInt8}
    {result : KeyInspection} (h : extensionNormalize decoder bytes headerLimit depth = .ok c)
    (hi : inspect decoder.next bytes headerLimit depth = .ok result) :
    c = bytes ↔ result.unsortedKeys = false := by
  have hex := h
  obtain ⟨hsize, es, hes, rfl, rfl⟩ := (extensionNormalize_ok_iff hread).1 hex
  obtain ⟨unsorted, hcomplete⟩ :=
    (normalize_iff_inspect hread (by simp [Tree.encode]) hsize).1 ⟨_, h⟩
  rw [hi] at hcomplete
  cases hcomplete
  obtain ⟨t, ht, heq, hu, -⟩ := (inspect_complete_iff hread hsize).1 hi
  have htree := encode_inj hes.canonical ht.canonical heq
  subst htree
  rw [normal_encode_eq_iff hes.canonical hes.distinct, Tree.sorted_iff hes.distinct]
  exact hu.symm

theorem normalize_iff_krpc (hread : ReadsAtoms decoder.next) (hhead : bytes.head? = some 100)
    (hsize : bytes.length ≤ min headerLimit 4096) (hdepth : 64 ≤ depth) (c : List UInt8) :
    extensionNormalize decoder bytes headerLimit depth = .ok c ↔
      normalize decoder.next bytes = .ok c := by
  rw [extensionNormalize_ok_iff hread, normalize_ok_iff hread, min_eq_right hdepth]
  constructor
  · rintro ⟨-, es, hes, hin, hout⟩
    exact ⟨_, krpcValue_iff.2 hes, hin, hout⟩
  · rintro ⟨t, ht, rfl, hout⟩
    obtain ⟨es, rfl⟩ := dict_of_head hhead
    exact ⟨hsize, es, krpcValue_iff.1 ht, rfl, hout⟩

/-- **The compatible path agrees with strict parsing**, if Bendy reads atoms and dictionaries as
documented:

* for an input that starts with `d` within the size limit, the normalizer accepts it exactly if the
  inspector reports it as complete without duplicate keys, and leaves it alone exactly if no unsorted
  key is reported; from a depth of 64 on it is the KRPC normalizer;
* a result is marked as strict exactly if strict parsing gives it;
* a result is marked as compatible exactly if the input is not strictly sorted, the normalizer accepts
  it, and strict parsing accepts the normalized input, whose fields it has;
* up to a depth of 64, two handshakes of at most 4096 bytes that differ only in the order of
  dictionary entries are both refused, or accepted with the same fields. -/
theorem extension_compatibility (hread : ReadsAtoms decoder.next)
    (hscan : ScansDictionaries decoder) (bytes : List UInt8) (headerLimit depth : Nat) :
    (bytes.head? = some 100 → bytes.length ≤ min headerLimit 4096 →
      ((∃ c, extensionNormalize decoder bytes headerLimit depth = .ok c) ↔
        ∃ unsorted, inspect decoder.next bytes headerLimit depth =
          .ok ⟨unsorted, false, .complete⟩) ∧
      (∀ c result, extensionNormalize decoder bytes headerLimit depth = .ok c →
        inspect decoder.next bytes headerLimit depth = .ok result →
        (c = bytes ↔ result.unsortedKeys = false)) ∧
      (64 ≤ depth → ∀ c, extensionNormalize decoder bytes headerLimit depth = .ok c ↔
        normalize decoder.next bytes = .ok c)) ∧
    (∀ update, parseExtension decoder bytes headerLimit depth = .ok update ∧
      update.mode = .strict ↔ parseExtensionStrict decoder bytes headerLimit depth = .ok update) ∧
    ((∃ update, parseExtension decoder bytes headerLimit depth = .ok update ∧
      update.mode = .unsortedCompatible) ↔
      ¬ StrictlySorted bytes ∧ ∃ c, extensionNormalize decoder bytes headerLimit depth = .ok c ∧
        ∃ u, parseExtensionStrict decoder c headerLimit depth = .ok u) ∧
    (∀ update c u, parseExtension decoder bytes headerLimit depth = .ok update →
      update.mode = .unsortedCompatible →
      extensionNormalize decoder bytes headerLimit depth = .ok c →
      parseExtensionStrict decoder c headerLimit depth = .ok u →
      update.metadataId = u.metadataId ∧ update.metadataSize = u.metadataSize) ∧
    (depth ≤ 64 → ∀ t t' : Tree, Tree.Same t t' → t.Canonical → t'.Canonical →
      t.encode.length ≤ 4096 → t'.encode.length ≤ 4096 → ∀ id size,
        (AcceptedAs decoder t.encode headerLimit depth id size ↔
          AcceptedAs decoder t'.encode headerLimit depth id size)) := by
  refine ⟨?_, ?_, ?_, ?_, ?_⟩
  · intro hhead hsize
    exact ⟨normalize_iff_inspect hread hhead hsize,
      fun c result hc hi => normalize_eq_iff_sorted hread hc hi,
      fun hdepth c => normalize_iff_krpc hread hhead hsize hdepth c⟩
  · exact fun update => parse_strict_iff
  · constructor
    · rintro ⟨update, h⟩
      obtain ⟨hs, c, u, hc, hu, -⟩ := (parse_compatible_iff hread hscan).1 h
      exact ⟨hs, c, hc, u, hu⟩
    · rintro ⟨hs, c, hc, u, hu⟩
      exact ⟨_, (parse_compatible_iff hread hscan).2 ⟨hs, c, u, hc, hu, rfl⟩⟩
  · intro update c u h hmode hc hu
    obtain ⟨-, c', u', hc', hu', rfl⟩ := (parse_compatible_iff hread hscan).1 ⟨h, hmode⟩
    rw [hc] at hc'
    cases hc'
    rw [hu] at hu'
    cases hu'
    exact ⟨rfl, rfl⟩
  · intro hdepth t t' hsame hc hc' hsize hsize' id size
    exact acceptedAs_same hread hscan hdepth hsame hc hc' hsize hsize' id size

end

/-! ## A decoder -/

mutual

/-- A value, as Bendy walks through it. -/
def BendyValue.ofValue : Value → BendyValue Unit
  | .atom encoded =>
    match nextAtom encoded with
    | .ok (some (.bytes content)) => .bytes content
    | .ok (some (.integer text)) => .integer text
    | _ => .list
  | .list _ => .list
  | .dict entries => .dict (BendyValue.ofEntries entries) none

/-- The pairs of a dictionary. -/
def BendyValue.ofEntries :
    List (List UInt8 × List UInt8 × Value) → List (List UInt8 × BendyValue Unit)
  | [] => []
  | (key, _, value) :: entries => (key, .ofValue value) :: BendyValue.ofEntries entries

end

/-- The value at the start of an input. -/
def firstValue (depth : Nat) (input : List UInt8) : Except (Fault Unit) (Value × List UInt8) :=
  readValue nextAtom (orderingRefusals Unit) depth (2 * input.length + 1) input 0

/-- A decoder that reads sorted dictionaries. -/
def sortedDecoder : Bendy Unit where
  next := nextAtom
  nextWithin depth input :=
    if input.head? = some 100 ∨ input.head? = some 108 then
      if depth = 0 then .error ()
      else if input.head? = some 100 then .ok (some .dict)
      else .ok (some .list)
    else nextAtom input
  intoRaw depth input :=
    match firstValue depth input with
    | .ok (value, rest) =>
      if input.head? = some 100 ∧ value.write ++ rest = input then .ok value.write else .error ()
    | .error _ => .error ()
  pairs depth input :=
    match firstValue depth input with
    | .ok (.dict entries, _) => (BendyValue.ofEntries entries, none)
    | _ => ([], some ())
  notDictionary _ := ()
  notInteger _ := ()
  display _ := []

theorem scansDictionaries_sortedDecoder : ScansDictionaries sortedDecoder where
  opens := by
    intro depth rest hdepth
    simp only [sortedDecoder, List.head?_cons, true_or, if_true]
    rw [if_neg (by omega)]
  raw := by
    intro depth input raw
    simp only [sortedDecoder]
    constructor
    · intro h
      split at h
      · rename_i value rest hvalue
        split at h
        · rename_i hcond
          cases h
          obtain ⟨t, ht, rfl, rfl⟩ := (read_sound readsAtoms_nextAtom _).1 _ _ _ _ hvalue
          rw [Value.write_ofTree] at hcond ⊢
          have hsorted := (normal_encode_eq_iff ht.canonical ht.distinct).1
            (List.append_cancel_right hcond.2)
          have hhead : t.encode.head? = some 100 := by
            obtain ⟨b, tail, hcons, -⟩ := Tree.head_ne_e t
            rw [hcons] at hcond ⊢
            exact hcond.1
          obtain ⟨es, rfl⟩ := dict_of_head hhead
          rw [Tree.normal_of_sorted hsorted]
          exact ⟨es, rest, ht.canonical, hsorted, ht.within, rfl, rfl⟩
        · cases h
      · cases h
    · rintro ⟨es, rest, hc, hs, hw, rfl, rfl⟩
      have hvalue := (@read_complete _ _ _ (orderingRefusals Unit) depth readsAtoms_nextAtom _).1
        (.dict es) 0 rest ⟨hc, hs.distinct, hw⟩ le_rfl
      rw [Tree.normal_of_sorted hs] at hvalue
      unfold firstValue
      simp only [hvalue, Value.write_ofTree]
      rw [if_pos]
      exact ⟨by simp [Tree.encode], trivial⟩

/-- A handshake with two entries, in both orders. -/
theorem extension_compatibility_two :
    AcceptedAs sortedDecoder
        (Tree.dict [([109], .dict []), ([97], .atom (.bytes []))]).encode 4096 64 none none ↔
      AcceptedAs sortedDecoder
        (Tree.dict [([97], .atom (.bytes [])), ([109], .dict [])]).encode 4096 64 none none := by
  have hread : ReadsAtoms sortedDecoder.next := readsAtoms_nextAtom
  refine (extension_compatibility hread scansDictionaries_sortedDecoder [] 4096 64).2.2.2.2 le_rfl
    _ _ ?_ ?_ ?_ ?_ ?_ none none
  · refine .dict (List.Perm.swap _ _ _) rfl ?_
    simpa using ⟨.dict (List.Perm.refl []) rfl (by simp), .atom _⟩
  · exact .dict trivial (by simpa using ⟨.dict trivial (by simp), .atom trivial⟩)
  · exact .dict trivial (by simpa using ⟨.atom trivial, .dict trivial (by simp)⟩)
  · simp [Tree.encode, Tree.encodeEntries, Object.encode, encodeBytes, length_decimal]
  · simp [Tree.encode, Tree.encodeEntries, Object.encode, encodeBytes, length_decimal]

end BtSniffer
