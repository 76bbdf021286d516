import BtSniffer.Krpc.FitResponse

/-!
# What `fit_response` leaves

* `Trimmed` — the responses that differ from the original by a cut in the order of the source: the
  peers go first, then the samples, the IPv4 nodes and the IPv6 nodes.
* `Trimmed.shrink`, `Trimmed.next` — these responses are those that removals lead to.
* `fit_response_minimal` — the loop ends with the first of them that fits.
-/

set_option autoImplicit false

namespace BtSniffer

open Bencode Krpc

/-! ## Cuts -/

/-- The first records; a field that is present stays present. -/
def CutTo {α : Type} (xs xs' : Option (List α)) : Prop :=
  (xs = none ∧ xs' = none) ∨ ∃ l l', xs = some l ∧ xs' = some l' ∧ l' <+: l

/-- The first records; a field that loses all of them is absent. -/
def CutAway {α : Type} (xs xs' : Option (List α)) : Prop :=
  xs' = xs ∨ ∃ l l', xs = some l ∧ l' <+: l ∧ xs' = if l'.isEmpty then none else some l'

theorem CutTo.refl {α : Type} (xs : Option (List α)) : CutTo xs xs := by
  cases xs with
  | none => exact .inl ⟨rfl, rfl⟩
  | some l => exact .inr ⟨l, l, rfl, rfl, List.prefix_refl l⟩

/-- The last record goes. -/
theorem CutTo.pop {α : Type} {xs : Option (List α)} {l : List α} {x : α}
    (h : CutTo xs (some (l ++ [x]))) : CutTo xs (some l) := by
  rcases h with ⟨-, h⟩ | ⟨k, k', rfl, hk, hfirst⟩
  · cases h
  · cases hk
    exact .inr ⟨k, l, rfl, rfl, (List.prefix_append l [x]).trans hfirst⟩

/-- A cut that changes something leaves out the last record. -/
theorem CutTo.left {α : Type} {l : List α} {x : α} {xs' : Option (List α)}
    (h : CutTo (some (l ++ [x])) xs') (hne : xs' ≠ some (l ++ [x])) : CutTo (some l) xs' := by
  rcases h with ⟨h, -⟩ | ⟨k, k', hk, rfl, hfirst⟩
  · cases h
  · cases hk
    refine .inr ⟨l, k', rfl, rfl, ?_⟩
    rcases List.prefix_concat_iff.1 hfirst with rfl | hfirst
    · exact absurd rfl hne
    · exact hfirst

theorem CutTo.length_le {α : Type} {xs xs' : Option (List α)} (h : CutTo xs xs') :
    (xs'.getD []).length ≤ (xs.getD []).length := by
  rcases h with ⟨rfl, rfl⟩ | ⟨l, l', rfl, rfl, hfirst⟩
  · exact le_rfl
  · exact hfirst.length_le

/-- A field without records cannot be cut. -/
theorem CutTo.of_empty {α : Type} {xs xs' : Option (List α)} (h : CutTo xs xs')
    (hempty : xs.getD [] = []) : xs' = xs := by
  rcases h with ⟨rfl, rfl⟩ | ⟨l, l', rfl, rfl, hfirst⟩
  · rfl
  · obtain rfl : l = [] := hempty
    rw [List.prefix_nil.1 hfirst]

theorem CutAway.pop {α : Type} {xs : Option (List α)} {l : List α} (h : CutAway xs (some l)) :
    CutAway xs (if l.dropLast.isEmpty then none else some l.dropLast) := by
  rcases h with rfl | ⟨k, k', rfl, hfirst, hk⟩
  · exact .inr ⟨l, l.dropLast, rfl, List.dropLast_prefix l, rfl⟩
  · split at hk
    · cases hk
    · cases hk
      exact .inr ⟨k, l.dropLast, rfl, (List.dropLast_prefix l).trans hfirst, rfl⟩

/-- Peers that lose a record are those without the last one, or fewer. -/
theorem CutAway.next {α : Type} {l : List α} {xs' : Option (List α)} (h : CutAway (some l) xs')
    (hne : xs' ≠ some l) : CutAway (if l.dropLast.isEmpty then none else some l.dropLast) xs' := by
  rcases h with h | ⟨k, k', hk, hfirst, rfl⟩
  · exact absurd h hne
  · cases hk
    cases hempty : k'.isEmpty with
    | true =>
      rw [if_pos rfl]
      split
      · exact .inl rfl
      · exact .inr ⟨l.dropLast, [], rfl, List.nil_prefix, rfl⟩
    | false =>
      rw [hempty, if_neg (by decide)] at hne
      have hlast : k' <+: l.dropLast := by
        have hl : l ≠ [] := by
          rintro rfl
          rw [List.prefix_nil.1 hfirst] at hempty
          cases hempty
        rw [← List.dropLast_append_getLast hl] at hfirst
        rcases List.prefix_concat_iff.1 hfirst with heq | hfirst
        · refine absurd (congrArg some ?_) hne
          rw [heq, List.dropLast_append_getLast]
        · exact hfirst
      have hfull : l.dropLast.isEmpty = false := by
        cases hd : l.dropLast with
        | nil =>
          rw [hd] at hlast
          rw [List.prefix_nil.1 hlast] at hempty
          cases hempty
        | cons x xs => rfl
      rw [if_neg (by simp [hfull])]
      exact .inr ⟨l.dropLast, k', rfl, hlast, by rw [hempty]⟩

namespace ResponseArgs

/-- A response that was cut in the order of the source. -/
structure Trimmed (r r' : ResponseArgs) : Prop where
  id : r'.id = r.id
  token : r'.token = r.token
  interval : r'.interval = r.interval
  num : r'.num = r.num
  values : CutAway r.values r'.values
  samples : CutTo r.samples r'.samples
  nodes : CutTo r.nodes r'.nodes
  nodes6 : CutTo r.nodes6 r'.nodes6
  samplesCut : r'.samples ≠ r.samples → r'.values = none
  nodesCut : r'.nodes ≠ r.nodes → r'.values = none ∧ r'.samples.getD [] = []
  nodes6Cut : r'.nodes6 ≠ r.nodes6 →
    r'.values = none ∧ r'.samples.getD [] = [] ∧ r'.nodes.getD [] = []

/-- The response with no records; `samples`, `nodes` and `nodes6` stay present. -/
def stripped (r : ResponseArgs) : ResponseArgs :=
  { r with
    values := none
    samples := r.samples.map (fun _ => [])
    nodes := r.nodes.map (fun _ => [])
    nodes6 := r.nodes6.map (fun _ => []) }

variable {r r' r'' : ResponseArgs}

/-! ## Removals and cuts -/

theorem Trimmed.refl (r : ResponseArgs) : Trimmed r r where
  id := rfl
  token := rfl
  interval := rfl
  num := rfl
  values := .inl rfl
  samples := CutTo.refl _
  nodes := CutTo.refl _
  nodes6 := CutTo.refl _
  samplesCut := fun h => absurd rfl h
  nodesCut := fun h => absurd rfl h
  nodes6Cut := fun h => absurd rfl h

/-- **A removal from a cut response is a cut of the original.** -/
theorem Trimmed.shrink (h : Trimmed r r') (hs : r'.shrink = some r'') : Trimmed r r'' := by
  rcases shrink_cases hs with ⟨values, hvalues, rfl⟩ | ⟨hvalues, l, x, hl, rfl⟩ |
    ⟨hvalues, hsamples, l, x, hl, rfl⟩ | ⟨hvalues, hsamples, hnodes, l, x, hl, rfl⟩
  · -- the peers are still there, so nothing else was cut
    have hkept : ¬r'.values = none := by simp [hvalues]
    have hcut := h.values
    rw [hvalues] at hcut
    exact { h with
      values := hcut.pop
      samplesCut := fun hne => absurd (h.samplesCut hne) hkept
      nodesCut := fun hne => absurd (h.nodesCut hne).1 hkept
      nodes6Cut := fun hne => absurd (h.nodes6Cut hne).1 hkept }
  · have hkept : ¬r'.samples.getD [] = [] := by simp [hl]
    have hcut := h.samples
    rw [hl] at hcut
    exact { h with
      samples := hcut.pop
      samplesCut := fun _ => hvalues
      nodesCut := fun hne => absurd (h.nodesCut hne).2 hkept
      nodes6Cut := fun hne => absurd (h.nodes6Cut hne).2.1 hkept }
  · have hkept : ¬r'.nodes.getD [] = [] := by simp [hl]
    have hcut := h.nodes
    rw [hl] at hcut
    exact { h with
      nodes := hcut.pop
      nodesCut := fun _ => ⟨hvalues, hsamples⟩
      nodes6Cut := fun hne => absurd (h.nodes6Cut hne).2.2 hkept }
  · have hcut := h.nodes6
    rw [hl] at hcut
    exact { h with
      nodes6 := hcut.pop
      nodes6Cut := fun _ => ⟨hvalues, hsamples, hnodes⟩ }

/-- A cut leaves no more removals. -/
theorem Trimmed.removals_le (h : Trimmed r r') : r'.removals ≤ r.removals := by
  have hvalues : r'.values.elim 0 (fun values => max values.length 1) ≤
      r.values.elim 0 (fun values => max values.length 1) := by
    rcases h.values with heq | ⟨l, l', hl, hfirst, heq⟩
    · rw [heq]
    · rw [heq, hl]
      have hle := hfirst.length_le
      split
      · exact Nat.zero_le _
      · simp only [Option.elim]
        omega
  have hsamples := h.samples.length_le
  have hnodes := h.nodes.length_le
  have hnodes6 := h.nodes6.length_le
  unfold removals
  omega

/-- A cut that leaves all records changes nothing. -/
theorem Trimmed.eq_self (h : Trimmed r r') (hvalues : r'.values = r.values)
    (hsamples : r'.samples = r.samples) (hnodes : r'.nodes = r.nodes)
    (hnodes6 : r'.nodes6 = r.nodes6) : r' = r := by
  have hid := h.id
  have htoken := h.token
  have hinterval := h.interval
  have hnum := h.num
  cases r
  cases r'
  simp only [mk.injEq] at *
  exact ⟨hid, htoken, hnodes, hnodes6, hvalues, hsamples, hinterval, hnum⟩

theorem Trimmed.values_none (h : Trimmed r r') (hvalues : r.values = none) : r'.values = none := by
  rcases h.values with heq | ⟨l, l', hl, -⟩
  · exact heq.trans hvalues
  · rw [hvalues] at hl
    cases hl

/-- Without a record there is nothing to cut. -/
theorem Trimmed.of_none (h : Trimmed r r') (hs : r.removals = 0) : r' = r := by
  unfold removals at hs
  have hvalues : r.values = none := by
    cases hv : r.values with
    | none => rfl
    | some values =>
      rw [hv] at hs
      simp only [Option.elim] at hs
      omega
  refine h.eq_self ((h.values_none hvalues).trans hvalues.symm) ?_ ?_ ?_
  · exact h.samples.of_empty (List.length_eq_zero_iff.1 (by omega))
  · exact h.nodes.of_empty (List.length_eq_zero_iff.1 (by omega))
  · exact h.nodes6.of_empty (List.length_eq_zero_iff.1 (by omega))

/-- **A cut that changes something starts with the removal of one turn.** -/
theorem Trimmed.next (h : Trimmed r r'') (hne : r'' ≠ r) :
    ∃ r', r.shrink = some r' ∧ Trimmed r' r'' := by
  cases hs : r.shrink with
  | none => exact absurd (h.of_none (shrink_eq_none.1 hs)) hne
  | some r' =>
    refine ⟨r', rfl, ?_⟩
    -- if the field of this turn is whole in the cut response, so are the fields after it
    rcases shrink_cases hs with ⟨values, hvalues, rfl⟩ | ⟨hvalues, l, x, hl, rfl⟩ |
      ⟨hvalues, hsamples, l, x, hl, rfl⟩ | ⟨hvalues, hsamples, hnodes, l, x, hl, rfl⟩
    · have hcut := h.values
      rw [hvalues] at hcut
      refine { h with values := hcut.next ?_ }
      intro hsame
      have hkept : ¬r''.values = none := by simp [hsame]
      refine hne (h.eq_self (hsame.trans hvalues.symm) ?_ ?_ ?_)
      · exact by_contra (fun hdiff => hkept (h.samplesCut hdiff))
      · exact by_contra (fun hdiff => hkept (h.nodesCut hdiff).1)
      · exact by_contra (fun hdiff => hkept (h.nodes6Cut hdiff).1)
    · have hcut := h.samples
      rw [hl] at hcut
      have hgone := h.values_none hvalues
      refine { h with samples := hcut.left ?_, samplesCut := fun _ => hgone }
      intro hsame
      have hkept : ¬r''.samples.getD [] = [] := by simp [hsame]
      refine hne (h.eq_self (hgone.trans hvalues.symm) (hsame.trans hl.symm) ?_ ?_)
      · exact by_contra (fun hdiff => hkept (h.nodesCut hdiff).2)
      · exact by_contra (fun hdiff => hkept (h.nodes6Cut hdiff).2.1)
    · have hcut := h.nodes
      rw [hl] at hcut
      have hgone := h.values_none hvalues
      have hsame' := h.samples.of_empty hsamples
      refine { h with nodes := hcut.left ?_, nodesCut := fun _ => ⟨hgone, by rw [hsame', hsamples]⟩ }
      intro hsame
      have hkept : ¬r''.nodes.getD [] = [] := by simp [hsame]
      refine hne (h.eq_self (hgone.trans hvalues.symm) hsame' (hsame.trans hl.symm) ?_)
      exact by_contra (fun hdiff => hkept (h.nodes6Cut hdiff).2.2)
    · have hcut := h.nodes6
      rw [hl] at hcut
      have hgone := h.values_none hvalues
      have hsame' := h.samples.of_empty hsamples
      have hsame'' := h.nodes.of_empty hnodes
      refine { h with
        nodes6 := hcut.left ?_
        nodes6Cut := fun _ => ⟨hgone, by rw [hsame', hsamples], by rw [hsame'', hnodes]⟩ }
      intro hsame
      exact hne (h.eq_self (hgone.trans hvalues.symm) hsame' hsame'' (hsame.trans hl.symm))

/-! ## Turns of the loop -/

/-- The loop turns from one response to another: what it leaves behind does not fit. -/
inductive Passes (unfit : ResponseArgs → Prop) : ResponseArgs → ResponseArgs → Prop
  | refl (r : ResponseArgs) : Passes unfit r r
  | step {r r' r'' : ResponseArgs} (hunfit : unfit r) (hs : r.shrink = some r')
      (rest : Passes unfit r' r'') : Passes unfit r r''

variable {unfit : ResponseArgs → Prop}

theorem Passes.trimmed {o : ResponseArgs} (h : Passes unfit r r') (ho : Trimmed o r) :
    Trimmed o r' := by
  induction h with
  | refl r => exact ho
  | step _ hs _ ih => exact ih (ho.shrink hs)

/-- **The loop leaves behind all larger cuts.** -/
theorem Passes.maximal (h : Passes unfit r r') (hcut : Trimmed r r'')
    (hmore : r'.removals < r''.removals) : unfit r'' := by
  induction h with
  | refl r => exact absurd hcut.removals_le (Nat.not_le_of_lt hmore)
  | @step r r₁ r₂ hunfit hs _ ih =>
    by_cases heq : r'' = r
    · rw [heq]
      exact hunfit
    · obtain ⟨r₃, hr₃, hcut'⟩ := hcut.next heq
      rw [hs] at hr₃
      cases hr₃
      exact ih hcut' hmore

/-- The last turn of the loop. -/
theorem Passes.last {o : ResponseArgs} (h : Passes unfit r r') (ho : Trimmed o r) (hne : r' ≠ r) :
    ∃ p, Trimmed o p ∧ p.shrink = some r' ∧ unfit p := by
  induction h with
  | refl r => exact absurd rfl hne
  | @step r r₁ r₂ hunfit hs _ ih =>
    by_cases heq : r₂ = r₁
    · rw [heq]
      exact ⟨r, ho, hs, hunfit⟩
    · exact ih (ho.shrink hs) heq

/-! ## The response without records -/

theorem stripped_shrink (h : r.shrink = some r') : r'.stripped = r.stripped := by
  rcases shrink_cases h with ⟨values, hvalues, rfl⟩ | ⟨-, l, x, hl, rfl⟩ | ⟨-, -, l, x, hl, rfl⟩ |
    ⟨-, -, -, l, x, hl, rfl⟩
  · rfl
  · simp [stripped, hl]
  · simp [stripped, hl]
  · simp [stripped, hl]

theorem stripped_trimmed (r : ResponseArgs) : Trimmed r r.stripped := by
  have hcut : ∀ {α : Type} (xs : Option (List α)), CutTo xs (xs.map (fun _ => [])) := by
    intro α xs
    cases xs with
    | none => exact .inl ⟨rfl, rfl⟩
    | some l => exact .inr ⟨l, [], rfl, rfl, List.nil_prefix⟩
  have hempty : ∀ {α : Type} (xs : Option (List α)), (xs.map (fun _ => ([] : List α))).getD [] = [] := by
    intro α xs
    cases xs <;> rfl
  refine ⟨rfl, rfl, rfl, rfl, ?_, hcut _, hcut _, hcut _, fun _ => rfl, fun _ => ⟨rfl, hempty _⟩,
    fun _ => ⟨rfl, hempty _, hempty _⟩⟩
  cases hv : r.values with
  | none => exact .inl rfl
  | some l => exact .inr ⟨l, [], rfl, List.nil_prefix, rfl⟩

theorem stripped_of_none (h : r.removals = 0) : r.stripped = r := (stripped_trimmed r).of_none h

theorem Passes.stripped_eq (h : Passes unfit r r') : r'.stripped = r.stripped := by
  induction h with
  | refl r => rfl
  | step _ hs _ ih => exact ih.trans (stripped_shrink hs)

/-- The response without records is the shortest. -/
theorem size_stripped_le : ∀ (n : Nat) (r : ResponseArgs), r.removals = n → r.stripped.size ≤ r.size
  | 0, r, h => by rw [stripped_of_none h]
  | n + 1, r, h => by
    cases hs : r.shrink with
    | none =>
      rw [shrink_eq_none.1 hs] at h
      cases h
    | some r' =>
      have hle := size_stripped_le n r' (by have := removals_shrink hs; omega)
      rw [stripped_shrink hs] at hle
      exact hle.trans (Nat.le_of_lt (size_shrink hs))

end ResponseArgs

/-! ## The result -/

/-- The message with a response is written within a limit. -/
def KrpcMessage.Fits (m : KrpcMessage) (limit : Nat) (r : ResponseArgs) : Prop :=
  ∃ bytes, { m with r := some r }.toBytes = some bytes ∧ bytes.length ≤ limit

open ResponseArgs

variable {m : KrpcMessage} {limit : Nat}

theorem fits_iff {r : ResponseArgs} (hp : r.plain = true) :
    m.Fits limit r ↔ m.frame + r.size ≤ limit := by
  unfold KrpcMessage.Fits
  rw [m.toBytes_eq r, if_pos hp]
  simp only [Option.some.injEq]
  constructor
  · rintro ⟨bytes, rfl, hle⟩
    exact (m.length_dict r.compact).symm.trans_le hle
  · intro hle
    exact ⟨_, rfl, (m.length_dict r.compact).trans_le hle⟩

/-- **The loop ends**: with a response that fits, or with one that has nothing left to remove. -/
theorem fitLoop_spec (m : KrpcMessage) (limit : Nat) : ∀ (fuel : Nat) (r : ResponseArgs),
    r.removals < fuel → r.plain = true → ∃ verdict r',
      fitLoop limit fuel { m with r := some r } = some (verdict, { m with r := some r' }) ∧
      Passes (fun r => ¬m.Fits limit r) r r' ∧ r'.plain = true ∧
      (verdict = true → m.Fits limit r') ∧
      (verdict = false → ¬m.Fits limit r' ∧ r'.removals = 0)
  | 0, _, h, _ => absurd h (Nat.not_lt_zero _)
  | fuel + 1, r, h, hp => by
    have hbytes : { m with r := some r }.toBytes = some (m.dict (some r.compact)).encode := by
      rw [m.toBytes_eq r, if_pos hp]
    unfold fitLoop
    rw [hbytes]
    simp only
    split
    · rename_i hle
      exact ⟨true, r, rfl, .refl r, hp, fun _ => ⟨_, hbytes, hle⟩,
        (fun hfalse => by cases hfalse)⟩
    · rename_i hlarge
      have hunfit : ¬m.Fits limit r := by
        rintro ⟨bytes, heq, hle⟩
        rw [hbytes] at heq
        cases heq
        exact hlarge hle
      cases hs : r.shrink with
      | none =>
        exact ⟨false, r, rfl, .refl r, hp, (fun htrue => by cases htrue),
          fun _ => ⟨hunfit, shrink_eq_none.1 hs⟩⟩
      | some r₁ =>
        have hfuel := removals_shrink hs
        obtain ⟨verdict, r', heq, hpass, hplain, htrue, hfalse⟩ :=
          fitLoop_spec m limit fuel r₁ (by omega) (plain_shrink hs hp)
        exact ⟨verdict, r', heq, .step hunfit hs hpass, hplain, htrue, hfalse⟩

/-- More turns do not change the result. -/
theorem fitLoop_mono : ∀ (fuel fuel' : Nat) {m : KrpcMessage} {out : Bool × KrpcMessage},
    fuel ≤ fuel' → fitLoop limit fuel m = some out → fitLoop limit fuel' m = some out
  | 0, _, _, _, _, h => by cases h
  | fuel + 1, 0, _, _, hle, _ => absurd hle (Nat.not_succ_le_zero fuel)
  | fuel + 1, fuel' + 1, m, out, hle, h => by
    unfold fitLoop at h ⊢
    split at h
    · exact h
    · split at h
      · rename_i hfits
        simp only [if_pos hfits]
        exact h
      · rename_i hlarge
        simp only [if_neg hlarge]
        split at h
        · exact h
        · split at h
          · exact h
          · exact fitLoop_mono fuel fuel' (Nat.le_of_succ_le_succ hle) h

/-- **`fit_response` trims minimally.** For every response that can be written and every limit the
loop ends. It accepts if and only if the message without records fits. In every case it leaves a cut of
the response in the order of the source. If it accepts, the cut fits, no larger cut does, and the
record that was removed last does not fit. -/
theorem fit_response_minimal (m : KrpcMessage) (r : ResponseArgs) (hr : m.r = some r)
    (hwritten : m.toBytes ≠ none) (limit : Nat) : ∃ verdict r',
      fitResponse m limit = some (verdict, { m with r := some r' }) ∧
      (∀ fuel, r.removals < fuel →
        fitLoop limit fuel m = some (verdict, { m with r := some r' })) ∧
      (verdict = true ↔ m.Fits limit r.stripped) ∧
      Trimmed r r' ∧
      (verdict = true → m.Fits limit r' ∧
        (∀ r'', Trimmed r r'' → m.Fits limit r'' → r''.removals ≤ r'.removals) ∧
        (r' ≠ r → ∃ last, Trimmed r last ∧ last.shrink = some r' ∧
          last.removals = r'.removals + 1 ∧ ¬m.Fits limit last)) := by
  have hself : { m with r := some r } = m := by
    rw [← hr]
  have hplain : r.plain = true := by
    by_contra hno
    refine hwritten ?_
    rw [← hself, m.toBytes_eq r, if_neg hno]
  obtain ⟨verdict, r', heq, hpass, hplain', htrue, hfalse⟩ :=
    fitLoop_spec m limit (r.removals + 1) r (Nat.lt_succ_self _) hplain
  have hstripped : r'.stripped = r.stripped := hpass.stripped_eq
  have htrimmed : Trimmed r r' := hpass.trimmed (.refl r)
  have hempty : r.stripped.plain = true := by
    cases hn : r.nodes6 <;> simp [plain, stripped, hn]
  rw [hself] at heq
  refine ⟨verdict, r', ?_, ?_, ?_, htrimmed, ?_⟩
  · unfold fitResponse
    rw [hr]
    exact heq
  · intro fuel hfuel
    exact fitLoop_mono _ _ hfuel heq
  · constructor
    · intro hv
      have hle := (fits_iff hplain').1 (htrue hv)
      have hsmall := size_stripped_le _ r' rfl
      rw [hstripped] at hsmall
      exact (fits_iff hempty).2 (by omega)
    · intro hfits
      cases hv : verdict with
      | true => rfl
      | false =>
        obtain ⟨hunfit, hzero⟩ := hfalse hv
        rw [← stripped_of_none hzero, hstripped] at hunfit
        exact absurd hfits hunfit
  · intro hv
    refine ⟨htrue hv, ?_, ?_⟩
    · intro r'' hcut hfits
      by_contra hmore
      exact hpass.maximal hcut (Nat.lt_of_not_le hmore) hfits
    · intro hne
      obtain ⟨last, hcut, hs, hunfit⟩ := hpass.last (.refl r) hne
      exact ⟨last, hcut, hs, removals_shrink hs, hunfit⟩

/-- A response with two samples. -/
def twoSamples : ResponseArgs := ⟨0, none, some [], none, none, some [1, 2], some 300, some 2⟩

/-- Its message. -/
def twoSamplesReply : KrpcMessage :=
  ⟨[97], .response, none, none, some twoSamples, none, none, some [127, 0, 0, 1, 0, 80]⟩

/-- A limit of 130 octets leaves one of the two samples. -/
theorem fit_response_minimal_two : twoSamplesReply.toBytes ≠ none ∧
    (fitResponse twoSamplesReply 130).map (fun out => (out.1, out.2.r)) =
      some (true, some { twoSamples with samples := some [1] }) ∧
    ∃ verdict r', fitResponse twoSamplesReply 130 =
        some (verdict, { twoSamplesReply with r := some r' }) ∧
      (verdict = true ↔ twoSamplesReply.Fits 130 twoSamples.stripped) := by
  have hwritten : twoSamplesReply.toBytes ≠ none := by decide +kernel
  obtain ⟨verdict, r', heq, -, hverdict, -⟩ :=
    fit_response_minimal twoSamplesReply twoSamples rfl hwritten 130
  exact ⟨hwritten, by decide +kernel, verdict, r', heq, hverdict⟩

end BtSniffer
