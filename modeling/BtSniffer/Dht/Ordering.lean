import BtSniffer.Wire.OrderingComplete

/-!
# Key order of KRPC messages

Reference model of `normalize` in `src/dht/udp/ordering.rs`: the shared normalizer with a depth limit
of 64 and the errors of that module.
-/

set_option autoImplicit false

namespace BtSniffer

open Bencode

/-- `MAX_DEPTH`. -/
def MAX_DEPTH : Nat := 64

/-- The errors of `bendy::serde` that `normalize` reports. -/
inductive KrpcError (β : Type) where
  | trailingBytes
  | customDecode (message : String)
  | decode (error : β)
  deriving DecidableEq, Repr

/-- The errors of the reader. -/
def krpcRefusals (β : Type) : Refusals β (KrpcError β) where
  nesting := .customDecode "KRPC nesting depth exceeds 64"
  key := .customDecode "KRPC dictionary key must be bytes"
  duplicate := .customDecode "duplicate KRPC dictionary key"
  start := .customDecode "expected KRPC integer or byte string"
  decode := .decode
  atom := .customDecode "expected KRPC atom"

/-- `normalize`. -/
def normalize {β : Type} (next : NextObject β) (input : List UInt8) :
    Except (Fault (KrpcError β)) (List UInt8) :=
  normalizeWith next (krpcRefusals β) MAX_DEPTH .trailingBytes input

/-- One value with canonical atoms, no key twice in a dictionary, and at most 64 nested containers. -/
structure KrpcValue (t : Tree) : Prop where
  canonical : t.Canonical
  distinct : t.Distinct
  within : t.Within MAX_DEPTH

theorem krpcValue_iff {t : Tree} : KrpcValue t ↔ Readable MAX_DEPTH 0 t :=
  ⟨fun h => ⟨h.canonical, h.distinct, h.within⟩, fun h => ⟨h.canonical, h.distinct, h.within⟩⟩

theorem KrpcValue.normal {t : Tree} (h : KrpcValue t) : KrpcValue t.normal where
  canonical := Tree.canonical_normal h.canonical
  distinct := (Tree.sorted_normal h.distinct).distinct
  within := Tree.within_normal.2 h.within

section

variable {β : Type} {next : NextObject β}

theorem normalize_ok_iff (hread : ReadsAtoms next) {input out : List UInt8} :
    normalize next input = .ok out ↔ ∃ t, KrpcValue t ∧ input = t.encode ∧ out = t.normal.encode := by
  unfold normalize
  rw [normalizeWith_ok_iff hread]
  simp only [krpcValue_iff]

theorem normalize_encode (hread : ReadsAtoms next) {t : Tree} (h : KrpcValue t) :
    normalize next t.encode = .ok t.normal.encode :=
  (normalize_ok_iff hread).2 ⟨t, h, rfl, rfl⟩

theorem encode_inj {t t' : Tree} (h : t.Canonical) (h' : t'.Canonical) (he : t.encode = t'.encode) :
    t = t' :=
  (Tree.encode_append_inj h h' (congrArg (· ++ []) he)).1

/-- **The normalizer is exact**, if Bendy reads an atom exactly when it is a canonical byte string or
integer:

* an input is accepted exactly if it is one value with canonical atoms, byte-string keys, no key twice
  in a dictionary, at most 64 nested containers, and nothing after it; no input leads to a panic, and
  the bounded search for it never runs out;
* the output is as long as the input and encodes the same value, with the keys of every dictionary
  strictly increasing; an output determines its value;
* normalizing twice is normalizing once, sorted values are left alone, and two accepted inputs have
  the same output exactly if they differ only in the order of dictionary entries. -/
theorem krpc_normalizer (hread : ReadsAtoms next) :
    (∀ input, ((∃ out, normalize next input = .ok out) ↔ ∃ t, KrpcValue t ∧ input = t.encode) ∧
      normalize next input ≠ .error .panic ∧ normalize next input ≠ .error .fuel) ∧
    (∀ input out, normalize next input = .ok out → out.length = input.length ∧
      ∃ t t', KrpcValue t ∧ KrpcValue t' ∧ input = t.encode ∧ out = t'.encode ∧ Tree.Same t t' ∧
        t'.Sorted) ∧
    (∀ t t' : Tree, t.Canonical → t'.Canonical → t.encode = t'.encode → t = t') ∧
    (∀ input out, normalize next input = .ok out → normalize next out = .ok out) ∧
    (∀ t, KrpcValue t → t.Sorted → normalize next t.encode = .ok t.encode) ∧
    ∀ t t', KrpcValue t → KrpcValue t' →
      (normalize next t.encode = normalize next t'.encode ↔ Tree.Same t t') := by
  refine ⟨?_, ?_, fun t t' h h' => encode_inj h h', ?_, ?_, ?_⟩
  · intro input
    refine ⟨?_, ?_, ?_⟩
    · constructor
      · rintro ⟨out, hout⟩
        obtain ⟨t, ht, hin, -⟩ := (normalize_ok_iff hread).1 hout
        exact ⟨t, ht, hin⟩
      · rintro ⟨t, ht, rfl⟩
        exact ⟨_, normalize_encode hread ht⟩
    · intro hpanic
      rcases @normalizeWith_settled _ _ _ (krpcRefusals β) MAX_DEPTH hread .trailingBytes input with
        ⟨a, ha⟩ | ⟨e, he⟩
      · cases ha.symm.trans hpanic
      · cases he.symm.trans hpanic
    · intro hfuel
      rcases @normalizeWith_settled _ _ _ (krpcRefusals β) MAX_DEPTH hread .trailingBytes input with
        ⟨a, ha⟩ | ⟨e, he⟩
      · cases ha.symm.trans hfuel
      · cases he.symm.trans hfuel
  · intro input out hout
    obtain ⟨t, ht, rfl, rfl⟩ := (normalize_ok_iff hread).1 hout
    exact ⟨Tree.length_encode_normal t, t, t.normal, ht, ht.normal, rfl, rfl,
      Tree.same_normal ht.distinct, Tree.sorted_normal ht.distinct⟩
  · intro input out hout
    obtain ⟨t, ht, rfl, rfl⟩ := (normalize_ok_iff hread).1 hout
    have hnormal := normalize_encode hread ht.normal
    rwa [Tree.normal_normal ht.distinct] at hnormal
  · intro t ht hsorted
    have hnormal := normalize_encode hread ht
    rwa [Tree.normal_of_sorted hsorted] at hnormal
  · intro t t' ht ht'
    rw [normalize_encode hread ht, normalize_encode hread ht', Except.ok.injEq,
      ← Tree.normal_eq_iff ht'.distinct]
    constructor
    · exact fun he => encode_inj (Tree.canonical_normal ht.canonical)
        (Tree.canonical_normal ht'.canonical) he
    · exact fun he => congrArg Tree.encode he

end

/-- A message with one entry; the library's reader reads atoms as Bendy does. -/
theorem krpc_normalizer_entry :
    normalize nextAtom (Tree.dict [([97], .atom (.bytes []))]).encode =
      .ok (Tree.dict [([97], .atom (.bytes []))]).encode := by
  refine (krpc_normalizer readsAtoms_nextAtom).2.2.2.2.1 _ ⟨?_, ?_, ?_⟩ ?_
  · exact .dict trivial (by simpa using .atom trivial)
  · exact .dict (by simp) (by simpa using .atom trivial)
  · simp [MAX_DEPTH, Tree.Within]
  · exact .dict (by simp) (by simpa using .atom trivial)

end BtSniffer
