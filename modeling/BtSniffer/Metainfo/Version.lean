import BtSniffer.Metainfo.Layout

/-!
# The version probe

`is_v2` reads pairs until it sees the version; `analyze` reads everything first.

* `parseI64_two` — of the canonical integers only `2` is read as 2.
* `entries_version` — the probe and the dictionary that `value` builds agree on the version.
* `version_probe` — the main result.
-/

set_option autoImplicit false

namespace BtSniffer.Info

open Bencode

/-! ## The integer 2 -/

/-- The number that digits are read as, after a number. -/
def readDigits (digits : List UInt8) (n : Int) : Int :=
  digits.foldl (fun n b => n * 10 + (b.toNat - 48)) n

theorem le_readDigits : ∀ {digits : List UInt8} {n : Int}, digits.all isDigit = true → 0 ≤ n →
    n ≤ readDigits digits n
  | [], n, _, _ => le_rfl
  | b :: rest, n, h, hn => by
    rw [List.all_cons, Bool.and_eq_true] at h
    have hb := h.1
    unfold isDigit at hb
    rw [decide_eq_true_eq] at hb
    have hrest := @le_readDigits rest (n * 10 + (b.toNat - 48)) h.2 (by omega)
    show n ≤ readDigits rest (n * 10 + (b.toNat - 48))
    omega

theorem parseI64_unsigned {c : UInt8} {rest : List UInt8} {n : Int} (hminus : c ≠ 45)
    (hplus : c ≠ 43) (h : parseI64 (c :: rest) = some n) : readDigits (c :: rest) 0 = n := by
  unfold parseI64 at h
  split at h
  · rename_i hcons
    exact absurd (List.cons.inj hcons).1 hminus
  · rename_i hcons
    exact absurd (List.cons.inj hcons).1 hplus
  · dsimp only at h
    rw [List.head?_cons, if_neg (fun he => hminus (Option.some.inj he))] at h
    split at h
    · cases h
    · split at h
      · exact Option.some.inj h
      · cases h

theorem parseI64_negative {rest : List UInt8} {n : Int} (hall : rest.all isDigit = true)
    (h : parseI64 (45 :: rest) = some n) : n ≤ 0 := by
  have hle : (0 : Int) ≤ readDigits rest 0 := le_readDigits hall le_rfl
  unfold readDigits at hle
  unfold parseI64 at h
  split at h
  · rename_i hcons
    cases hcons
    dsimp only at h
    rw [List.head?_cons, if_pos rfl] at h
    split at h
    · cases h
    · split at h
      · have heq := Option.some.inj h
        omega
      · cases h
  · rename_i hcons
    cases hcons
  · rename_i hcons _
    exact absurd rfl (hcons rest)

/-- Of the canonical integers only `2` is read as 2. -/
theorem parseI64_two {text : List UInt8} (hc : canonicalInteger text = true) :
    parseI64 text = some 2 ↔ text = [50] := by
  constructor
  · intro h
    cases text with
    | nil => cases hc
    | cons c rest =>
      simp only [canonicalInteger] at hc
      split at hc
      · -- A minus sign: the number is not positive.
        rename_i hminus
        subst hminus
        rw [Bool.and_eq_true] at hc
        have hdigits : rest.all isDigit = true := by
          cases rest with
          | nil => cases hc.1
          | cons d ds =>
            have h1 := hc.1
            simp only [canonicalNatural, Bool.and_eq_true] at h1
            rw [List.all_cons, h1.1.1, h1.1.2]
            rfl
        have hle := parseI64_negative hdigits h
        omega
      · rename_i hminus
        simp only [canonicalNatural, Bool.and_eq_true] at hc
        obtain ⟨⟨hdigit, hall⟩, hlead⟩ := hc
        have hbounds := hdigit
        unfold isDigit at hbounds
        rw [decide_eq_true_eq] at hbounds
        have hplus : c ≠ 43 := by
          rintro rfl
          revert hdigit
          decide
        have hvalue := parseI64_unsigned hminus hplus h
        have hstep : readDigits (c :: rest) 0 = readDigits rest (c.toNat - 48) := by
          simp [readDigits]
        rw [hstep] at hvalue
        have hle := le_readDigits hall (by omega : (0 : Int) ≤ c.toNat - 48)
        cases rest with
        | nil =>
          have hnum : (c.toNat : Int) - 48 = 2 := hvalue
          have hc : c = 50 := by
            apply UInt8.toNat_inj.1
            show c.toNat = 50
            omega
          rw [hc]
        | cons d ds =>
          have hne : c ≠ 48 := by
            rintro rfl
            simp at hlead
          have hpos : 49 ≤ c.toNat := by
            have hne' : c.toNat ≠ 48 := fun he => hne (UInt8.toNat_inj.1 he)
            omega
          rw [List.all_cons, Bool.and_eq_true] at hall
          have hd := hall.1
          unfold isDigit at hd
          rw [decide_eq_true_eq] at hd
          have hrest := @le_readDigits ds ((c.toNat - 48) * 10 + (d.toNat - 48)) hall.2 (by omega)
          have hvalue' : readDigits ds ((c.toNat - 48) * 10 + (d.toNat - 48)) = 2 := hvalue
          omega
  · rintro rfl
    decide

/-! ## What `value` reads is complete -/

mutual

/-- `value` fails on an object with an error inside. -/
theorem value_complete : ∀ {o : Object} {budget : Nat} {r : Value × Nat},
    value o budget = .ok r → o.complete = true
  | .bytes content, budget, r, h => by rw [Object.complete]
  | .integer text, budget, r, h => by rw [Object.complete]
  | .list items ended, budget, r, h => by
    rw [value] at h
    obtain ⟨left, -, h⟩ := except_bind_ok h
    obtain ⟨q, hq, h⟩ := except_bind_ok h
    rw [Object.complete, Bool.and_eq_true]
    exact values_complete hq
  | .dict pairs ended, budget, r, h => by
    rw [value] at h
    obtain ⟨left, -, h⟩ := except_bind_ok h
    obtain ⟨q, hq, h⟩ := except_bind_ok h
    rw [Object.complete, Bool.and_eq_true]
    exact entries_complete hq

theorem values_complete : ∀ {items : List Object} {ended : Bool} {budget : Nat}
    {r : List Value × Nat}, values items ended budget = .ok r →
    ended = true ∧ Object.completeItems items = true
  | [], ended, budget, r, h => by
    rw [values] at h
    split at h
    · rename_i hended
      exact ⟨hended, by rw [Object.completeItems]⟩
    · cases h
  | item :: rest, ended, budget, r, h => by
    rw [values] at h
    obtain ⟨q, hq, h⟩ := except_bind_ok h
    obtain ⟨t, ht, h⟩ := except_bind_ok h
    obtain ⟨hended, hrest⟩ := values_complete ht
    refine ⟨hended, ?_⟩
    rw [Object.completeItems, value_complete hq, hrest]
    rfl

theorem entries_complete : ∀ {pairs : List (Bytes × Object)} {ended : Bool} {d : Dict}
    {budget : Nat} {r : Dict × Nat}, entries pairs ended d budget = .ok r →
    ended = true ∧ Object.completePairs pairs = true
  | [], ended, d, budget, r, h => by
    rw [entries] at h
    split at h
    · rename_i hended
      exact ⟨hended, by rw [Object.completePairs]⟩
    · cases h
  | (k, item) :: rest, ended, d, budget, r, h => by
    rw [entries] at h
    obtain ⟨q, hq, h⟩ := except_bind_ok h
    split at h
    · cases h
    · obtain ⟨hended, hrest⟩ := entries_complete h
      refine ⟨hended, ?_⟩
      rw [Object.completePairs, value_complete hq, hrest]
      rfl

end

/-! ## The version in the dictionary -/

theorem get_cons (e : Bytes × Value) (d : Dict) (k : Bytes) :
    Dict.get (e :: d) k = if e.1 = k then some e.2 else Dict.get d k := by
  unfold Dict.get
  rw [List.find?_cons]
  by_cases he : e.1 = k
  · rw [if_pos he, beq_iff_eq.2 he]
    rfl
  · rw [if_neg he, beq_eq_false_iff_ne.2 he]

theorem get_insert (k : Bytes) (v : Value) (other : Bytes) : ∀ d : Dict,
    Dict.get (Dict.insert k v d) other = if k = other then some v else Dict.get d other
  | [] => by rw [Dict.insert, get_cons]
  | e :: rest => by
    unfold Dict.insert
    split
    · rw [get_cons]
    · split
      · rename_i heq
        rw [get_cons, get_cons, heq]
        split
        · rfl
        · rfl
      · rename_i hne
        rw [get_cons, get_cons, get_insert k v other rest]
        split
        · rename_i he
          rw [if_neg (fun hk => hne (hk.trans he.symm))]
        · rfl

/-- An entry is not replaced. -/
theorem entries_keep : ∀ {pairs : List (Bytes × Object)} {ended : Bool} {d : Dict} {budget : Nat}
    {r : Dict × Nat} {k : Bytes} {v : Value}, entries pairs ended d budget = .ok r →
    Dict.get d k = some v → Dict.get r.1 k = some v
  | [], ended, d, budget, r, k, v, h, hk => by
    rw [entries] at h
    split at h
    · cases h
      exact hk
    · cases h
  | (other, item) :: rest, ended, d, budget, r, k, v, h, hk => by
    rw [entries] at h
    obtain ⟨q, hq, h⟩ := except_bind_ok h
    split at h
    · cases h
    · rename_i hnew
      refine entries_keep h ?_
      rw [get_insert, if_neg]
      · exact hk
      · rintro rfl
        rw [Dict.containsKey, hk] at hnew
        exact hnew rfl

theorem versionLoop_cons {k : Bytes} (hk : k = key "meta version") (o : Object)
    (rest : List (Bytes × Object)) :
    versionLoop ((k, o) :: rest) = true ↔ o = .integer (key "2") := by
  cases o with
  | integer text => simp [versionLoop, hk]
  | bytes content => simp [versionLoop, hk]
  | list items ended => simp [versionLoop, hk]
  | dict pairs ended => simp [versionLoop, hk]

theorem versionLoop_skip {k : Bytes} (hk : k ≠ key "meta version") (o : Object)
    (rest : List (Bytes × Object)) :
    versionLoop ((k, o) :: rest) = (o.complete && versionLoop rest) := by
  show (if k = key "meta version" then _ else _) = _
  exact if_neg hk

/-- The objects that are read as the version 2. -/
theorem value_two {o : Object} {budget : Nat} {r : Value × Nat}
    (hcanonical : ∀ text, o = .integer text → canonicalInteger text = true)
    (h : value o budget = .ok r) : o = .integer (key "2") ↔ r.1 = .integer 2 := by
  cases o with
  | bytes content =>
    rw [value] at h
    obtain ⟨left, -, h⟩ := except_bind_ok h
    cases h
    simp
  | integer text =>
    rw [value] at h
    obtain ⟨left, -, h⟩ := except_bind_ok h
    have htwo := parseI64_two (hcanonical text rfl)
    split at h
    · rename_i number hnumber
      cases h
      rw [hnumber] at htwo
      rw [Object.integer.injEq, Value.integer.injEq]
      exact ⟨fun ht => Option.some.inj (htwo.2 ht), fun hn => htwo.1 (congrArg some hn)⟩
    · cases h
  | list items ended =>
    rw [value] at h
    obtain ⟨left, -, h⟩ := except_bind_ok h
    obtain ⟨q, hq, h⟩ := except_bind_ok h
    cases h
    simp
  | dict pairs ended =>
    rw [value] at h
    obtain ⟨left, -, h⟩ := except_bind_ok h
    obtain ⟨q, hq, h⟩ := except_bind_ok h
    cases h
    simp

/-- The probe and the dictionary that `value` builds agree on the version. -/
theorem entries_version : ∀ {pairs : List (Bytes × Object)} {ended : Bool} {d : Dict}
    {budget : Nat} {r : Dict × Nat},
    (∀ k text, (k, Object.integer text) ∈ pairs → canonicalInteger text = true) →
    Dict.get d (key "meta version") = none → entries pairs ended d budget = .ok r →
    (versionLoop pairs = true ↔ Dict.get r.1 (key "meta version") = some (.integer 2))
  | [], ended, d, budget, r, _, hd, h => by
    rw [entries] at h
    split at h
    · cases h
      simp [versionLoop, hd]
    · cases h
  | (k, item) :: rest, ended, d, budget, r, hcanonical, hd, h => by
    rw [entries] at h
    obtain ⟨q, hq, h⟩ := except_bind_ok h
    split at h
    · cases h
    · by_cases hk : k = key "meta version"
      · have hget : Dict.get r.1 (key "meta version") = some q.1 :=
          entries_keep h (by rw [get_insert, if_pos hk])
        rw [versionLoop_cons hk, hget, Option.some.injEq]
        refine value_two (fun text htext => ?_) hq
        exact hcanonical k text (htext ▸ List.mem_cons_self)
      · rw [versionLoop_skip hk, value_complete hq, Bool.true_and]
        refine entries_version (fun k' text hmem => ?_) ?_ h
        · exact hcanonical k' text (List.mem_cons_of_mem _ hmem)
        · rw [get_insert, if_neg hk, hd]

/-! ## The probe and the analysis -/

/-- What bendy yields for the integers of a dictionary: it accepts only canonical ones. -/
def InfoDecoder.CanonicalIntegers (decoder : InfoDecoder) : Prop :=
  ∀ info pairs ended k text, decoder.first info = .ok (some (.dict pairs ended)) →
    (k, Object.integer text) ∈ pairs → canonicalInteger text = true

theorem parseRoot_version {decoder : InfoDecoder} {info : Bytes} {r : Dict × Nat}
    (hcanonical : decoder.CanonicalIntegers) (h : parseRoot decoder info = .ok r) :
    isV2 decoder info = true ↔ Dict.get r.1 (key "meta version") = some (.integer 2) := by
  unfold parseRoot at h
  split at h
  · cases h
  · split at h
    · cases h
    · cases h
    · rename_i object hfirst
      obtain ⟨root, hroot, h⟩ := except_bind_ok h
      split at h
      · cases h
      · cases h
      · obtain ⟨d, hd, h⟩ := except_bind_ok h
        cases h
        cases object with
        | bytes content =>
          rw [value] at hroot
          obtain ⟨left, -, hroot⟩ := except_bind_ok hroot
          cases hroot
          cases hd
        | integer text =>
          rw [value] at hroot
          obtain ⟨left, -, hroot⟩ := except_bind_ok hroot
          split at hroot
          · cases hroot
            cases hd
          · cases hroot
        | list items ended =>
          rw [value] at hroot
          obtain ⟨left, -, hroot⟩ := except_bind_ok hroot
          obtain ⟨q, hq, hroot⟩ := except_bind_ok hroot
          cases hroot
          cases hd
        | dict pairs ended =>
          rw [value] at hroot
          obtain ⟨left, -, hroot⟩ := except_bind_ok hroot
          obtain ⟨q, hq, hroot⟩ := except_bind_ok hroot
          cases hroot
          cases hd
          unfold isV2
          rw [hfirst]
          exact entries_version (fun k text hmem => hcanonical info pairs ended k text hfirst hmem)
            rfl hq

/-- The format follows from the entry with the version. -/
theorem formatOf_version {d : Dict} {version : Option Int} (h : parseVersion d = .ok version) :
    (formatOf d version = .v2 ∨ formatOf d version = .hybrid) ↔
      Dict.get d (key "meta version") = some (.integer 2) := by
  unfold parseVersion at h
  obtain ⟨v, hv, h⟩ := except_bind_ok h
  split at h
  · cases h
  · rename_i hknown
    cases h
    have hiff : version = some 2 ↔ Dict.get d (key "meta version") = some (.integer 2) := by
      unfold metaVersion at hv
      split at hv
      · rename_i w hw
        rw [hw, Option.some.injEq]
        cases w with
        | integer n =>
          cases hv
          rw [Option.some.injEq, Value.integer.injEq]
        | bytes content => cases hv
        | list items => cases hv
        | dict entries => cases hv
      · rename_i hw
        cases hv
        rw [hw]
        simp
    rw [← hiff]
    unfold formatOf
    split
    · rename_i htwo
      split
      · simp [htwo]
      · simp [htwo]
    · rename_i htwo
      simp [htwo]

/-- **The version probe agrees with the analysis.** For every dictionary whose format is known,
`isV2` is true exactly for the formats with a v2 layout. A v2 identity is matched only for those
formats and for an unknown one, and the matched identity has the requested key and is among the
identities that are recorded. -/
theorem version_probe (decoder : InfoDecoder) (hcanonical : decoder.CanonicalIntegers)
    (sha1 : Bytes → BitVec 160) (sha256 : Bytes → BitVec 256)
    (dictionaryPrefix : Bytes → Nat → Option Nat) (info : Bytes) :
    ((analyze decoder info).format ≠ .unknown →
      (isV2 decoder info = true ↔
        (analyze decoder info).format = .v2 ∨ (analyze decoder info).format = .hybrid)) ∧
    (∀ k hash,
      (infoMetainfo decoder sha1 sha256 dictionaryPrefix).matchIdentity info k = some (.v2 hash) →
      (analyze decoder info).format = .v2 ∨ (analyze decoder info).format = .hybrid ∨
        (analyze decoder info).format = .unknown) ∧
    (∀ k source,
      (infoMetainfo decoder sha1 sha256 dictionaryPrefix).matchIdentity info k = some source →
      (analyze decoder info).status = .valid →
      source ∈ (infoMetainfo decoder sha1 sha256 dictionaryPrefix).identities info source ∧
        source.swarmKey = k) := by
  have hprobe : (analyze decoder info).format ≠ .unknown →
      (isV2 decoder info = true ↔
        (analyze decoder info).format = .v2 ∨ (analyze decoder info).format = .hybrid) := by
    intro hknown
    obtain ⟨e, -, hrej⟩ | ⟨d, budget, version, hroot, hversion, hformat, -⟩ :=
      analyze_cases decoder info
    · exact absurd (congrArg InfoAnalysis.format hrej) hknown
    · rw [parseRoot_version hcanonical hroot, hformat]
      exact (formatOf_version hversion).symm
  refine ⟨hprobe, fun k hash hmatch => ?_, fun k source hmatch _ => ?_⟩
  · -- Only the branch of the probe returns a v2 identity.
    unfold Metainfo.matchIdentity at hmatch
    split at hmatch
    · cases hmatch
    · split at hmatch
      · rename_i hv2
        by_cases hknown : (analyze decoder info).format = .unknown
        · exact .inr (.inr hknown)
        · rcases (hprobe hknown).1 hv2.1 with h | h
          · exact .inl h
          · exact .inr (.inl h)
      · cases hmatch
  · exact ⟨Metainfo.source_mem_identities hmatch, Metainfo.matchIdentity_swarmKey hmatch⟩

theorem version_probe_small : isV2 (smallDecoder smallHybrid) smallHybrid.encode = true := by
  have hcanonical : (smallDecoder smallHybrid).CanonicalIntegers := by
    intro info pairs ended k text hfirst hmem
    have hpairs : pairs = Object.ofPairs [(key "file tree", .dict [([97], .dict [([], .dict
        [(key "length", .atom (.integer [49])),
          (key "pieces root", .atom (.bytes (List.replicate 32 0)))])])]),
        (key "length", .atom (.integer [49])), (key "meta version", .atom (.integer [50])),
        (key "name", .atom (.bytes [97])), (key "piece length", .atom (.integer (key "16384"))),
        (key "pieces", .atom (.bytes (List.replicate 20 0)))] := by
      cases hfirst
      rfl
    subst hpairs
    simp only [Object.ofPairs, Object.ofTree, List.mem_cons, Prod.mk.injEq, reduceCtorEq, and_false,
      false_or, Object.integer.injEq, or_false, List.not_mem_nil] at hmem
    rcases hmem with ⟨-, rfl⟩ | ⟨-, rfl⟩ | ⟨-, rfl⟩
    · decide
    · decide
    · decide
  have hformat : (analyze (smallDecoder smallHybrid) smallHybrid.encode).format = .hybrid := by
    decide +kernel
  have hprobe := (version_probe (smallDecoder smallHybrid) hcanonical (fun _ => 0) (fun _ => 0)
    (fun _ _ => none) smallHybrid.encode).1
  rw [hformat] at hprobe
  exact (hprobe (by decide)).2 (.inr rfl)

end BtSniffer.Info
