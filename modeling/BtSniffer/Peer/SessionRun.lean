import BtSniffer.Peer.Pieces

/-!
# Reassembly of metadata

* `Session.Inv` — what holds of a session after the events that it accepted.
* `step_spec` — every event is refused without a panic, or keeps the invariant.
* `metadata_reassembly` — the main result.
-/

set_option autoImplicit false

namespace BtSniffer.Peer

open Blocks Pieces

/-! ## The session -/

/-- What holds of a session after the events that it accepted. -/
structure Session.Inv (config : MetadataConfig) (events : List Event) (s : Session) : Prop where
  size : ∀ n, s.metadataSize = some n → 0 < n ∧ n ≤ config.maxMetadataSize
  early : s.pieces = none → ∀ i total payload, Event.metadata (.data i total payload) ∉ events
  transfer : ∀ p, s.pieces = some p → ∃ n, s.metadataSize = some n ∧
    p.Good n config.requestWindow ∧ p.Traced events

theorem Session.Inv.start (config : MetadataConfig) : Session.start.Inv config [] where
  size _ h := by cases h
  early _ _ _ _ h := absurd h List.not_mem_nil
  transfer _ h := by cases h

variable {config : MetadataConfig} {events : List Event} {s s' : Session}

/-- An event without data that leaves the pieces alone. -/
theorem Session.Inv.extend (h : s.Inv config events) {e : Event}
    (he : ∀ i total payload, e ≠ .metadata (.data i total payload)) :
    s.Inv config (events ++ [e]) where
  size := h.size
  early hnone i total payload hmem := by
    rcases List.mem_append.1 hmem with hmem | hmem
    · exact h.early hnone i total payload hmem
    · exact absurd (List.mem_singleton.1 hmem).symm (he i total payload)
  transfer p hp := by
    obtain ⟨n, hn, hgood, htraced⟩ := h.transfer p hp
    exact ⟨n, hn, hgood, htraced.other he rfl rfl⟩

theorem applyId_ok {update : ExtensionUpdate} (h : applyId update s = .ok s') :
    s'.pieces = s.pieces ∧ s'.metadataSize = s.metadataSize := by
  unfold applyId at h
  split at h
  · cases h
    exact ⟨rfl, rfl⟩
  · split at h
    · cases h
    · cases h
      exact ⟨rfl, rfl⟩

/-- The size is checked, and does not change once the buffer is allocated. -/
theorem applySize_ok {update : ExtensionUpdate} (h : applySize update config s = .ok s') :
    s'.pieces = s.pieces ∧ (s'.metadataSize = s.metadataSize ∨
      ∃ n, s'.metadataSize = some n ∧ 0 < n ∧ n ≤ config.maxMetadataSize ∧
        (s.pieces.isSome = true → s.metadataSize = some n)) := by
  unfold applySize at h
  split at h
  · cases h
    exact ⟨rfl, .inl rfl⟩
  · rename_i n _
    split at h
    · cases h
    · rename_i hrange
      split at h
      · cases h
      · rename_i hchanged
        cases h
        refine ⟨rfl, .inr ⟨n, rfl, by omega, by omega, fun hp => ?_⟩⟩
        by_contra hne
        exact hchanged ⟨hp, hne⟩

theorem allocate_cases (s : Session) :
    allocate s = s ∨ ∃ n, s.pieces = none ∧ s.metadataSize = some n ∧
      allocate s = { s with pieces := some (.new n) } := by
  unfold allocate
  split
  · rename_i hnone hid hsize
    exact .inr ⟨_, hnone, hsize, rfl⟩
  · exact .inl rfl

/-- The session before the buffer is allocated, and the allocation. -/
theorem Session.Inv.allocate (h : s.Inv config events) : (allocate s).Inv config events := by
  obtain he | ⟨n, hnone, hsize, he⟩ := allocate_cases s
  · rw [he]
    exact h
  · rw [he]
    refine ⟨h.size, fun hp => (by cases hp), fun p hp => ?_⟩
    cases hp
    refine ⟨n, hsize, new_good n config.requestWindow, ?_, ?_⟩
    · intro i total payload hmem
      exact absurd hmem (h.early hnone i total payload)
    · intro i hi
      simp [Pieces.new, List.getElem?_replicate] at hi

theorem Session.Inv.extension (h : s.Inv config events) {update : ExtensionUpdate}
    (hs : applyExtension update config s = .ok s') : s'.Inv config events := by
  unfold applyExtension at hs
  obtain ⟨s₁, h₁, hs⟩ := except_bind_ok hs
  obtain ⟨s₂, h₂, hs⟩ := except_bind_ok hs
  cases hs
  obtain ⟨hp₁, hm₁⟩ := applyId_ok h₁
  obtain ⟨hp₂, hm₂⟩ := applySize_ok h₂
  refine Session.Inv.allocate ⟨?_, ?_, ?_⟩
  · intro n hn
    rcases hm₂ with hm₂ | ⟨k, hk, hpos, hle, -⟩
    · exact h.size n (by rw [← hm₁, ← hm₂, hn])
    · rw [hk] at hn
      cases hn
      exact ⟨hpos, hle⟩
  · intro hnone
    exact h.early (by rw [← hp₁, ← hp₂, hnone])
  · intro p hp
    obtain ⟨n, hn, hgood, htraced⟩ := h.transfer p (by rw [← hp₁, ← hp₂, hp])
    refine ⟨n, ?_, hgood, htraced⟩
    rcases hm₂ with hm₂ | ⟨k, hk, -, -, hsame⟩
    · rw [hm₂, hm₁, hn]
    · have hsome : s₁.pieces.isSome = true := by rw [← hp₂, hp]; rfl
      rw [hk, ← hsame hsome, hm₁, hn]

/-- The size of a buffer leaves room for the sums of `data`. -/
theorem size_lt (hv : config.validate = true) {n : Nat} (hn : n ≤ config.maxMetadataSize) :
    n < 2 ^ 63 := by
  simp only [MetadataConfig.validate, Bool.and_eq_true, decide_eq_true_eq] at hv
  omega

/-- **Every event** is refused without a panic, or keeps the invariant. -/
theorem step_spec (hv : config.validate = true) (h : s.Inv config events) (e : Event) :
    (∃ error, step config e s = .error (.refused error)) ∨
      ∃ s', step config e s = .ok s' ∧ s'.Inv config (events ++ [e]) := by
  cases e with
  | request now =>
    have hplain : ∀ i total payload, Event.request now ≠ .metadata (.data i total payload) := by
      intro i total payload he
      cases he
    right
    unfold step
    dsimp only
    cases hp : s.pieces with
    | none => exact ⟨s, rfl, h.extend hplain⟩
    | some p =>
      obtain ⟨n, hn, hgood, htraced⟩ := h.transfer p hp
      obtain ⟨q, hturn, hq, -, hbytes, hcomplete, -⟩ | ⟨hturn, -⟩ :=
        requestTurn_spec hgood rfl now
      · dsimp only
        rw [hturn]
        refine ⟨_, rfl, h.size, fun hnone => (by cases hnone), fun r hr => ?_⟩
        cases hr
        exact ⟨n, hn, hq, htraced.other hplain hbytes hcomplete⟩
      · dsimp only
        rw [hturn]
        exact ⟨s, rfl, h.extend hplain⟩
  | extension update =>
    unfold step
    dsimp only
    cases hs : applyExtension update config s with
    | error error => exact .inl ⟨error, rfl⟩
    | ok s' =>
      refine .inr ⟨s', rfl, (h.extension hs).extend ?_⟩
      intro i total payload he
      cases he
  | metadata message =>
    unfold step metadataMessage
    dsimp only
    cases hp : s.pieces with
    | none => exact .inl ⟨_, rfl⟩
    | some p =>
      obtain ⟨n, hn, hgood, htraced⟩ := h.transfer p hp
      cases message with
      | unknown => exact .inr ⟨s, rfl, h.extend (fun _ _ _ he => by cases he)⟩
      | request piece => exact .inr ⟨s, rfl, h.extend (fun _ _ _ he => by cases he)⟩
      | reject piece =>
        dsimp only
        split
        · exact .inl ⟨_, rfl⟩
        · exact .inr ⟨s, rfl, h.extend (fun _ _ _ he => by cases he)⟩
      | data piece total payload =>
        dsimp only
        obtain ⟨kind, hd⟩ | ⟨hd, rfl, hdone, hblock⟩ | ⟨hd, rfl, hpiece, hdone, ⟨d, hdl⟩, hlength⟩ :=
          data_spec hgood (size_lt hv (h.size n hn).2) piece total payload
        · rw [hd]
          exact .inl ⟨_, rfl⟩
        · rw [hd]
          refine .inr ⟨_, rfl, h.size, fun hnone => (by cases hnone), fun r hr => ?_⟩
          cases hr
          refine ⟨total, hn, hgood, ?_⟩
          have hrepeated := htraced.repeated hdone hblock
          rw [hgood.bytes] at hrepeated
          exact hrepeated
        · rw [hd]
          refine .inr ⟨_, rfl, h.size, fun hnone => (by cases hnone), fun r hr => ?_⟩
          cases hr
          exact ⟨total, hn, accepted_good hgood hpiece hdone hdl hlength,
            htraced.accepted hgood hpiece hdone hlength⟩

/-- **A whole session.** -/
theorem run_inv (hv : config.validate = true) : ∀ {later events : List Event} {s s' : Session},
    s.Inv config events → run config later s = .ok s' → s'.Inv config (events ++ later)
  | [], events, s, s', h, hrun => by
    cases hrun
    rw [List.append_nil]
    exact h
  | e :: later, events, s, s', h, hrun => by
    rw [run] at hrun
    obtain ⟨error, hstep⟩ | ⟨s₁, hstep, h₁⟩ := step_spec hv h e
    · rw [hstep] at hrun
      cases hrun
    · rw [hstep] at hrun
      have hinv := run_inv hv h₁ hrun
      rw [List.append_assoc, List.singleton_append] at hinv
      exact hinv

end BtSniffer.Peer
