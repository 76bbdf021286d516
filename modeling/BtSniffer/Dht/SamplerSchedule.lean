import BtSniffer.Dht.SamplerWaiting

/-!
# Scheduling keeps the invariant

* `Calm` — a frame that gives no candidate a fallback.
* `Safe.start` — a session starts with nothing out, and its cooldowns fit.
* `Safe.register` — a request is registered for a node that neither cools down nor is in flight.
* `next_returns` — what `next` keeps and what is known of the request it returns.
-/

set_option autoImplicit false

namespace BtSniffer

open Relational

namespace Sampler

variable {s s' : Sampler} {now : Nat} {out : List Request} {ends : List CooldownEnd} {r : Request}

/-! ## Fallbacks -/

/-- The candidate with this Node ID has a fallback. -/
def HasFallback (s : Sampler) (id : NodeId) : Prop :=
  ∃ a c, s.session = some a ∧ a.candidates.get? id = some (id, c) ∧ c.kind = .findNodeFallback

/-- No candidate gets a fallback. -/
def NoFallback (s s' : Sampler) : Prop := ∀ id, s'.HasFallback id → s.HasFallback id

theorem NoFallback.refl (s : Sampler) : NoFallback s s := fun _ h => h

theorem NoFallback.trans {s₁ s₂ s₃ : Sampler} (h : NoFallback s₁ s₂) (h' : NoFallback s₂ s₃) :
    NoFallback s₁ s₃ := fun id hid => h id (h' id hid)

theorem NoFallback.of_session (h : s'.session = s.session) : NoFallback s s' := by
  intro id hid
  unfold HasFallback at hid ⊢
  rw [← h]
  exact hid

theorem NoFallback.of_none (h : s'.session = none) : NoFallback s s' := by
  rintro id ⟨a, c, ha, -⟩
  rw [h] at ha
  cases ha

theorem NoFallback.of_some {a b : SamplingSession} (ha : s.session = some a)
    (hb : s'.session = some b) (h : a.NoNewFallback b) : NoFallback s s' := by
  rintro id ⟨b', c, hb', hc, hkind⟩
  rw [hb] at hb'
  cases hb'
  obtain ⟨c', hc', hkind'⟩ := h id c hc hkind
  exact ⟨a, c', ha, hc', hkind'⟩

/-- A frame that gives no candidate a fallback. -/
structure Calm (s s' : Sampler) : Prop extends Frame s s' where
  fallback : NoFallback s s'

theorem Calm.refl (s : Sampler) : Calm s s := ⟨.refl s, .refl s⟩

/-- Only the status and the deadline change. -/
theorem Calm.of_eq (hdurable : s'.durable = s.durable) (hids : s'.ids = s.ids)
    (hips : s'.ips = s.ips) (hgeneration : s'.generation = s.generation)
    (hsession : s'.session = s.session) : Calm s s' := by
  refine ⟨.of_session hids hips ?_ ?_ hgeneration hsession, .of_session hsession⟩
  · unfold ready?
    rw [hdurable]
  · unfold reserving?
    rw [hdurable]

/-- The session is renewed. -/
theorem Calm.of_renews {a b : SamplingSession} (ha : s.session = some a) (hb : s'.session = some b)
    (hdurable : s'.durable = s.durable) (hids : s'.ids = s.ids) (hips : s'.ips = s.ips)
    (hgeneration : s'.generation = s.generation) (hren : a.Renews b) (htidy : a.Tidy → b.Tidy)
    (hfallback : a.NoNewFallback b) : Calm s s' := by
  refine ⟨⟨hids, hips, ?_, ?_, hgeneration, .inr ⟨a, b, ha, hb, hren, htidy⟩⟩,
    .of_some ha hb hfallback⟩
  · unfold ready?
    rw [hdurable]
  · unfold reserving?
    rw [hdurable]

/-! ## Sessions -/

section Session

variable {a : SamplingSession}

/-- Candidates that are not in flight are dropped. -/
theorem tidy_delete (t : a.Tidy) (p : CandidateRow → Bool)
    (h : ∀ row, p row = true → a.isInFlight row.1 = false) :
    SamplingSession.Tidy { a with candidates := a.candidates.delete p } where
  keyed := by
    refine ⟨fun row hrow => t.keyed.key row (Table.mem_delete.1 hrow).1, ?_⟩
    intro e he
    obtain ⟨c, hc, hip⟩ := t.keyed.kept e he
    refine ⟨c, ?_, hip⟩
    simp only [Table.get?_delete, hc, Option.filter_some]
    rw [if_pos]
    rw [Bool.not_eq_true']
    by_contra hp
    have hflight : a.isInFlight e.1 = true := SamplingSession.isInFlight_iff.2 ⟨e.2, he⟩
    have hfree : a.isInFlight e.1 = false := h (e.1, c) (by simpa using hp)
    rw [hfree] at hflight
    cases hflight
  parallel := t.parallel
  distinct := t.distinct
  room := t.room
  capacity := (List.length_filter_le _ _).trans t.capacity

theorem dropBad_tidy (t : a.Tidy) (routing : RoutingTable) (now : Nat) :
    (a.dropBad routing now).Tidy := by
  refine tidy_delete t _ ?_
  intro row hrow
  rw [Bool.and_eq_true, Bool.not_eq_true'] at hrow
  exact hrow.1

theorem dropBad_fallback (a : SamplingSession) (routing : RoutingTable) (now : Nat) :
    a.NoNewFallback (a.dropBad routing now) := by
  intro id c hc hkind
  unfold SamplingSession.dropBad at hc
  simp only [Table.get?_delete] at hc
  exact ⟨c, (Option.filter_eq_some_iff.1 hc).1, hkind⟩

theorem resetRound_tidy (t : a.Tidy) (random : NodeId) (now : Nat) :
    (a.resetRound random now).Tidy := by
  obtain ⟨hkeyed, hparallel, hdistinct, hroom, hcapacity⟩ := tidy_update t (fun _ => true)
    (fun row => (row.1, { row.2 with visited := false, kind := .sample })) (fun _ => rfl)
    (fun _ => rfl)
  exact ⟨⟨hkeyed.key, hkeyed.kept⟩, hparallel, hdistinct, hroom, hcapacity⟩

theorem resetRound_fallback (a : SamplingSession) (random : NodeId) (now : Nat) :
    a.NoNewFallback (a.resetRound random now) := by
  intro id c hc hkind
  unfold SamplingSession.resetRound at hc
  simp only [Table.get?_update, if_true] at hc
  obtain ⟨row, -, heq⟩ := Option.map_eq_some_iff.1 hc
  cases heq
  cases hkind

theorem permit_tidy (t : a.Tidy) (permit : Bool) :
    SamplingSession.Tidy { a with readyPermit := permit } :=
  ⟨⟨t.keyed.key, t.keyed.kept⟩, t.parallel, t.distinct, t.room, t.capacity⟩

theorem permit_fallback (a : SamplingSession) (permit : Bool) :
    a.NoNewFallback { a with readyPermit := permit } := fun _ c hc hkind => ⟨c, hc, hkind⟩

end Session

theorem calm_newRound {a : SamplingSession} (ha : s.session = some a) (random : NodeId)
    (now : Nat) : Calm s (s.newRound a random now) :=
  .of_renews ha rfl rfl rfl rfl rfl ⟨rfl, rfl⟩ (fun t => resetRound_tidy t random now)
    (resetRound_fallback a random now)

theorem calm_nextIdle {a : SamplingSession} (ha : s.session = some a)
    (selection : SamplingSession.Selection) (random : NodeId) (now : Nat) :
    Calm s (s.nextIdle a selection random now) := by
  unfold nextIdle
  split
  · exact calm_newRound ha random now
  · split
    · exact .of_eq rfl rfl rfl rfl rfl
    · exact .of_eq rfl rfl rfl rfl rfl

/-! ## A session starts -/

/-- Rows of cooldowns that have passed are dropped, but not those in flight. -/
theorem Safe.prune (hs : s.Safe now out ends) {p : NodeId × Cooldown → Bool}
    {q : IpAddr × Nat → Bool} (hp : ∀ e, p e = true → e.2.until_ ≤ now)
    (hq : ∀ e, q e = true → e.2 ≤ now)
    (hflight : ∀ a, s.session = some a → ∀ e ∈ a.inFlight.rows,
      (∀ x, p x = true → x.1 ≠ e.1) ∧ ∀ y, q y = true → y.1 ≠ e.2) :
    Safe { s with ids := s.ids.delete p, ips := s.ips.delete q } now out ends := by
  refine { hs with tracked := ?_, bounded := ?_, kept := ?_, owned := ?_ }
  · intro a ha e he
    obtain ⟨hid, hip⟩ := hs.tracked a ha e he
    obtain ⟨x, hx⟩ := Option.isSome_iff_exists.1 hid
    obtain ⟨y, hy⟩ := Option.isSome_iff_exists.1 hip
    have hpx : p x = false := by
      rw [Bool.eq_false_iff]
      exact fun h => (hflight a ha e he).1 x h (Table.get?_eq_some.1 hx).2
    have hqy : q y = false := by
      rw [Bool.eq_false_iff]
      exact fun h => (hflight a ha e he).2 y h (Table.get?_eq_some.1 hy).2
    simp [hx, hy, hpx, hqy]
  · intro a ha
    have hbound := hs.bounded a ha
    exact ⟨(List.length_filter_le _ _).trans hbound.1, (List.length_filter_le _ _).trans hbound.2⟩
  · intro m hm hlt
    obtain ⟨⟨c, hc, hid⟩, u, hu, hip⟩ := hs.kept m hm hlt
    have hpc : p (m.id, c) = false := by
      rw [Bool.eq_false_iff]
      intro h
      have hle : c.until_ ≤ now := hp _ h
      omega
    have hqu : q (m.ip, u) = false := by
      rw [Bool.eq_false_iff]
      intro h
      have hle : u ≤ now := hq _ h
      omega
    constructor
    · exact ⟨c, by simp [hc, hpc], hid⟩
    · exact ⟨u, by simp [hu, hqu], hip⟩
  · exact fun m hm hlt q hq hkind hconcerns => hs.owned m hm hlt q hq hkind hconcerns

/-- A new session with nothing out. -/
theorem Safe.open (hs : s.Safe now [] ends) (hsession : s.session = none) {config : SamplerConfig}
    (hroom : config.parallelism ≤ config.candidateCapacity)
    (hids : s.ids.rows.length ≤ config.cooldownCapacity)
    (hips : s.ips.rows.length ≤ config.cooldownCapacity) (random : NodeId) (t : Nat) :
    Safe { s with
      generation := s.generation + 1
      session := some ⟨config, false, .empty, .empty, random, 0, t⟩ } now [] ends := by
  have hready : s.ready? = none := hs.idle hsession
  have hempty : ∀ q, q ∉ [] ++ s.ready?.toList := by
    simp [hready]
  refine { hs with
    tidy := ?_, tracked := ?_, bounded := ?_, sent := ?_, current := ?_, waits := ?_, idle := ?_,
    kept := fun m hm hlt => ⟨(hs.kept m hm hlt).id, (hs.kept m hm hlt).ip⟩, owned := ?_ }
  · rintro a ⟨⟩
    refine ⟨⟨?_, ?_⟩, ?_, ?_, hroom, ?_⟩
    · rintro row ⟨⟩
    · rintro e ⟨⟩
    · exact Nat.zero_le _
    · exact List.nodup_nil
    · exact Nat.zero_le _
  · rintro a ⟨⟩ e ⟨⟩
  · rintro a ⟨⟩
    exact ⟨hids, hips⟩
  · exact fun a _ q hq => absurd hq (hempty q)
  · exact fun q hq => absurd hq (hempty q)
  · intro q hq
    have hlt : q.generation < s.generation + 1 := by
      rcases hs.waits q hq with ⟨hgen, -⟩ | ⟨hgen, -⟩ <;> omega
    refine .inr ⟨hlt, rfl, hready, ?_⟩
    rintro a ⟨⟩
    rfl
  · intro hnone
    cases hnone
  · intro m hm hlt q hq hkind hconcerns
    have hown := hs.owned m hm hlt q hq hkind hconcerns
    refine ⟨hown.1, fun hcur => ?_⟩
    have hgen : q.generation = s.generation + 1 := hcur.2
    rcases mem_live.1 hq with hq | hq | hq
    · cases hq
    · cases hready.symm.trans hq
    · rcases hs.waits q hq with ⟨hgen', -⟩ | ⟨hgen', -⟩ <;> omega

theorem validate_room {config : SamplerConfig} {maxPending t : Nat}
    (h : config.validate maxPending t = .ok ()) :
    config.parallelism ≤ config.candidateCapacity := by
  unfold SamplerConfig.validate at h
  split at h
  · cases h
  · rename_i hvalid
    simp only [not_or, not_lt] at hvalid
    exact hvalid.2.2.2.2.2.2.2.2.2.1

/-- **A session starts only with cooldowns that fit.** -/
theorem Safe.start (hs : s.Safe now [] ends) (config : SamplerConfig) (maxPending t : Nat)
    (random : NodeId) (hnow : now ≤ t) :
    (s.start config maxPending t random).2.Safe t [] ends := by
  have hlater := hs.later hnow
  unfold Sampler.start
  split
  · exact hlater
  split
  · exact hlater
  split
  · exact hlater
  · rename_i hsession
    have hnone : s.session = none := by simpa using hsession
    have hprune : Safe { s with
        ids := s.ids.delete (fun e => decide (e.2.until_ ≤ t))
        ips := s.ips.delete (fun e => decide (e.2 ≤ t)) } t [] ends := by
      refine hlater.prune (fun e he => of_decide_eq_true he) (fun e he => of_decide_eq_true he) ?_
      intro a ha
      rw [hnone] at ha
      cases ha
    cases hvalid : config.validate maxPending t with
    | error e => exact hlater
    | ok u =>
      simp only
      split
      · exact hprune
      · rename_i hfits
        simp only [not_or, not_lt] at hfits
        exact (hprune.open hnone (validate_room hvalid) hfits.1 hfits.2 random t).frame
          (.of_session rfl rfl rfl rfl rfl rfl)

/-! ## A request is registered -/

/-- What is known of a candidate that may be asked. -/
structure Eligible (s : Sampler) (a : SamplingSession) (now : Nat) (c : Candidate) : Prop where
  apart : a.isInFlight c.node.id = false
  free : a.isBusy c.node.ip = false
  due : SamplingSession.due s.ids s.ips now c ≤ now
  id : s.ids.get? c.node.id = none → s.ids.rows.length < a.config.cooldownCapacity
  ip : s.ips.get? c.node.ip = none → s.ips.rows.length < a.config.cooldownCapacity

theorem eligible_of_verdict {a : SamplingSession} {c : Candidate}
    (h : a.verdict s.ids s.ips now c = .eligible) : s.Eligible a now c := by
  unfold SamplingSession.verdict at h
  split at h
  · cases h
  · rename_i hfree
    split at h
    · cases h
    · rename_i hdue
      split at h
      · cases h
      · rename_i hroom
        simp only [not_or, Bool.not_eq_true] at hfree
        simp only [not_or, not_and, not_le] at hroom
        exact ⟨hfree.2.1, hfree.2.2, by omega, hroom.1, hroom.2⟩

/-- **The ends of a node that may be asked for samples have passed.** -/
theorem Eligible.cool {a : SamplingSession} {c : Candidate} (h : s.Eligible a now c)
    (hs : s.Safe now out ends) (hkind : c.kind = .sample) {m : CooldownEnd} (hm : m ∈ ends)
    (hconcerns : m.Concerns c.node) : m.until_ ≤ now := by
  by_contra hlt
  obtain ⟨⟨x, hx, hid⟩, u, hu, hip⟩ := hs.kept m hm (by omega)
  have hdue := h.due
  unfold SamplingSession.due at hdue
  rw [if_neg (by simp [hkind])] at hdue
  rcases hconcerns with heq | heq
  · have hle : x.until_ ≤ now := by
      rw [← heq, hx] at hdue
      exact (le_max_left _ _).trans hdue
    omega
  · have hle : u ≤ now := by
      rw [← heq, hu] at hdue
      exact (le_max_right _ _).trans hdue
    omega

/-- A candidate that is asked loses its fallback. -/
theorem register_kind (a : SamplingSession) (id j : NodeId) {c : Candidate}
    (h : (a.candidates.update (fun row => decide (row.1 = id))
      (fun row => (row.1, { row.2 with visited := true, kind := .sample })) (fun _ => rfl)).get? j =
        some (j, c)) (hkind : c.kind = .findNodeFallback) :
    j ≠ id ∧ a.candidates.get? j = some (j, c) := by
  rw [Table.get?_update] at h
  obtain ⟨row, hrow, heq⟩ := Option.map_eq_some_iff.1 h
  have hkey : row.1 = j := (Table.get?_eq_some.1 hrow).2
  split at heq
  · cases heq
    cases hkind
  · rename_i hne
    cases heq
    exact ⟨by simpa using hne, hrow⟩

/-- `register_request` keeps the session tidy. -/
theorem register_tidy {a : SamplingSession} (t : a.Tidy) {c : Candidate}
    (hc : c ∈ a.candidates.rows.map Prod.snd) (hflight : a.isInFlight c.node.id = false)
    (hbusy : a.isBusy c.node.ip = false)
    (hparallel : a.inFlight.rows.length < a.config.parallelism) (queries nextSend : Nat) :
    SamplingSession.Tidy { a with
      candidates := a.candidates.update (fun row => decide (row.1 = c.node.id))
        (fun row => (row.1, { row.2 with visited := true, kind := .sample })) (fun _ => rfl)
      inFlight := a.inFlight.insert (c.node.id, c.node.ip)
      queries := queries
      nextSend := nextSend
      readyPermit := false } := by
  have hbase := tidy_update t (fun row => decide (row.1 = c.node.id))
    (fun row => (row.1, { row.2 with visited := true, kind := .sample })) (fun _ => rfl)
    (fun _ => rfl)
  have hnone : a.inFlight.get? c.node.id = none := by
    unfold SamplingSession.isInFlight at hflight
    simpa using hflight
  have hrows : (a.inFlight.insert (c.node.id, c.node.ip)).rows =
      a.inFlight.rows ++ [(c.node.id, c.node.ip)] := Table.insert_of_none hnone
  refine ⟨⟨hbase.keyed.key, ?_⟩, ?_, ?_, t.room, hbase.capacity⟩
  · intro e he
    rcases Table.mem_insert.1 he with rfl | ⟨he, -⟩
    · obtain ⟨row, hrow, rfl⟩ := List.mem_map.1 hc
      have hkey := t.keyed.key row hrow
      have hget : a.candidates.get? row.1 = some row := Table.get?_key hrow
      refine ⟨{ row.2 with visited := true, kind := .sample }, ?_, rfl⟩
      simp [hget, hkey]
    · exact hbase.keyed.kept e he
  · rw [hrows, List.length_append, List.length_singleton]
    exact hparallel
  · rw [hrows, List.map_append, List.nodup_append]
    refine ⟨t.distinct, by simp, ?_⟩
    rintro ip hip ip' hip' rfl
    obtain ⟨e, he, rfl⟩ := List.mem_map.1 hip
    have hsame : e.2 = c.node.ip := by simpa using hip'
    have hin : a.isBusy c.node.ip = true :=
      SamplingSession.isBusy_iff.2 ⟨e.1, by rw [← hsame]; exact he⟩
    rw [hbusy] at hin
    cases hin

/-- **`register_request` puts a node in flight** that nothing else asks. -/
theorem Safe.register (hs : s.Safe now out ends) {a : SamplingSession} (ha : s.session = some a)
    (hready : s.ready? = none) (hreserving : s.reserving? = none) {c : Candidate}
    (hc : c ∈ a.candidates.rows.map Prod.snd) (he : s.Eligible a now c)
    (hparallel : a.inFlight.rows.length < a.config.parallelism) :
    (s.registerRequest a c now).1.Safe now ((s.registerRequest a c now).2 :: out) ends := by
  have hlive : s.live out = out := by simp [Sampler.live, hready, hreserving]
  have hplace : ∀ q ∈ out, q.place ∈ a.inFlight.rows :=
    fun q hq => hs.sent a ha q (List.mem_append_left _ hq)
  have hid : ∀ q ∈ out, q.node.id ≠ c.node.id := by
    intro q hq heq
    have hin : a.isInFlight c.node.id = true :=
      SamplingSession.isInFlight_iff.2 ⟨q.node.ip, by rw [← heq]; exact hplace q hq⟩
    rw [he.apart] at hin
    cases hin
  have hip : ∀ q ∈ out, q.node.ip ≠ c.node.ip := by
    intro q hq heq
    have hin : a.isBusy c.node.ip = true :=
      SamplingSession.isBusy_iff.2 ⟨q.node.id, by rw [← heq]; exact hplace q hq⟩
    rw [he.free] at hin
    cases hin
  have hbound := hs.bounded a ha
  have hlive' : (s.registerRequest a c now).1.live ((s.registerRequest a c now).2 :: out) =
      (s.registerRequest a c now).2 :: out := by
    have h₁ : (s.registerRequest a c now).1.ready? = none := hready
    have h₂ : (s.registerRequest a c now).1.reserving? = none := hreserving
    simp [Sampler.live, h₁, h₂]
  have hmem : ∀ q ∈ (s.registerRequest a c now).2 :: out ++
      (s.registerRequest a c now).1.ready?.toList,
      q = (s.registerRequest a c now).2 ∨ q ∈ out := by
    intro q hq
    rw [show (s.registerRequest a c now).1.ready? = none from hready] at hq
    simpa using hq
  refine ⟨?_, ?_, ?_, ?_, ?_, ?_, ?_, ?_, ?_, ?_, ?_⟩
  · rintro b ⟨⟩
    exact register_tidy (hs.tidy a ha) hc he.apart he.free hparallel _ _
  · rintro b ⟨⟩ e hmem
    rcases Table.mem_insert.1 hmem with rfl | ⟨hmem, -⟩
    · exact ⟨Table.isSome_insertNew _ _ _ (.inr rfl), Table.isSome_insertNew _ _ _ (.inr rfl)⟩
    · obtain ⟨h₁, h₂⟩ := hs.tracked a ha e hmem
      exact ⟨Table.isSome_insertNew _ _ _ (.inl h₁), Table.isSome_insertNew _ _ _ (.inl h₂)⟩
  · rintro b ⟨⟩
    exact ⟨Table.length_insertNew_le hbound.1 he.id, Table.length_insertNew_le hbound.2 he.ip⟩
  · rintro b ⟨⟩ q hq
    rcases hmem q hq with rfl | hq
    · exact Table.mem_insert.2 (.inl rfl)
    · exact Table.mem_insert.2 (.inr ⟨hplace q hq, hid q hq⟩)
  · intro q hq
    rcases hmem q hq with rfl | hq
    · rfl
    · exact hs.current q (List.mem_append_left _ hq)
  · intro q hq
    cases hreserving.symm.trans hq
  · intro hnone
    cases hnone
  · rw [hlive', List.map_cons, List.nodup_cons]
    refine ⟨?_, hlive ▸ hs.ids⟩
    intro hin
    obtain ⟨q, hq, heq⟩ := List.mem_map.1 hin
    exact hid q hq heq
  · rw [hlive', List.map_cons, List.nodup_cons]
    refine ⟨?_, hlive ▸ hs.ips⟩
    intro hin
    obtain ⟨q, hq, heq⟩ := List.mem_map.1 hin
    exact hip q hq heq
  · intro m hm hlt
    obtain ⟨⟨x, hx, hidle⟩, u, hu, hiple⟩ := hs.kept m hm hlt
    constructor
    · exact ⟨x, by simp [registerRequest, Table.get?_insertNew, hx], hidle⟩
    · exact ⟨u, by simp [registerRequest, Table.get?_insertNew, hu], hiple⟩
  · intro m hm hlt q hq hkind hconcerns
    rw [hlive'] at hq
    rcases List.mem_cons.1 hq with rfl | hq
    · have hle : m.until_ ≤ now := he.cool hs hkind hm hconcerns
      omega
    · have hown := hs.owned m hm hlt q (by rw [hlive]; exact hq) hkind hconcerns
      refine ⟨hown.1, fun hcur => hown.2 ⟨?_, hcur.2⟩⟩
      rw [ha]
      rfl

/-! ## The next request -/

/-- What `next` keeps, and what is known of the request it returns. -/
structure Returns (s : Sampler) (now : Nat) (out : List Request) (ends : List CooldownEnd)
    (result : Sampler × Option Request) : Prop where
  safe : result.1.Safe now (result.2.toList ++ out) ends
  cool : ∀ r, result.2 = some r → r.kind = .sample → ∀ m ∈ ends, m.Concerns r.node →
    m.until_ ≤ now
  fallback : NoFallback s result.1
  used : ∀ r, result.2 = some r → r.kind = .findNodeFallback →
    s.HasFallback r.node.id ∧ ¬ result.1.HasFallback r.node.id

theorem Calm.returns (h : Calm s s') (hs : s.Safe now out ends) :
    Returns s now out ends (s', none) where
  safe := hs.frame h.toFrame
  cool := by
    rintro r ⟨⟩
  fallback := h.fallback
  used := by
    rintro r ⟨⟩

theorem Returns.after {result : Sampler × Option Request} (h : Calm s s')
    (hr : Returns s' now out ends result) : Returns s now out ends result where
  safe := hr.safe
  cool := hr.cool
  fallback := h.fallback.trans hr.fallback
  used := fun r hres hkind => ⟨h.fallback _ (hr.used r hres hkind).1, (hr.used r hres hkind).2⟩

theorem Safe.dropExpired (hs : s.Safe now out ends) {a : SamplingSession}
    (ha : s.session = some a) : (s.dropExpired a now).Safe now out ends := by
  have hflight : ∀ b, s.session = some b → ∀ e ∈ b.inFlight.rows,
      (∀ x : NodeId × Cooldown, (decide (x.2.until_ ≤ now) && !a.isInFlight x.1) = true →
        x.1 ≠ e.1) ∧
      ∀ y : IpAddr × Nat, (decide (y.2 ≤ now) && !a.isBusy y.1) = true → y.1 ≠ e.2 := by
    intro b hb e he
    rw [ha] at hb
    cases hb
    constructor
    · rintro x hx heq
      rw [Bool.and_eq_true, Bool.not_eq_true'] at hx
      have hin : a.isInFlight x.1 = true :=
        SamplingSession.isInFlight_iff.2 ⟨e.2, by rw [heq]; exact he⟩
      rw [hx.2] at hin
      cases hin
    · rintro y hy heq
      rw [Bool.and_eq_true, Bool.not_eq_true'] at hy
      have hin : a.isBusy y.1 = true :=
        SamplingSession.isBusy_iff.2 ⟨e.1, by rw [heq]; exact he⟩
      rw [hy.2] at hin
      cases hin
  unfold Sampler.dropExpired
  rw [Table.ite_delete, Table.ite_delete]
  refine hs.prune ?_ ?_ ?_
  · intro e he
    rw [Bool.and_eq_true, Bool.and_eq_true] at he
    exact of_decide_eq_true he.2.1
  · intro e he
    rw [Bool.and_eq_true, Bool.and_eq_true] at he
    exact of_decide_eq_true he.2.1
  · intro b hb e he
    obtain ⟨h₁, h₂⟩ := hflight b hb e he
    exact ⟨fun x hx => h₁ x (Bool.and_eq_true_iff.1 hx).2,
      fun y hy => h₂ y (Bool.and_eq_true_iff.1 hy).2⟩

/-- The candidate that is chosen may be asked. -/
theorem selectCandidate_spec {a : SamplingSession} {c : Candidate}
    (h : (a.selectCandidate s.ids s.ips now).candidate = some c) :
    c ∈ a.candidates.rows.map Prod.snd ∧ s.Eligible a now c := by
  unfold SamplingSession.selectCandidate at h
  simp only at h
  have hmem := List.mem_of_mem_take (List.mem_of_mem_head? h)
  rw [List.mem_insertionSort, List.mem_filter] at hmem
  exact ⟨hmem.1, eligible_of_verdict (of_decide_eq_true hmem.2)⟩

theorem nextSelect_returns (hs : s.Safe now out ends) {a : SamplingSession}
    (ha : s.session = some a) (hready : s.ready? = none) (hreserving : s.reserving? = none)
    (hparallel : a.inFlight.rows.length < a.config.parallelism) (random : NodeId) :
    Returns s now out ends (s.nextSelect a random now) := by
  have hdrop := hs.dropExpired ha
  unfold nextSelect
  simp only
  cases hc : (a.selectCandidate (s.dropExpired a now).ids (s.dropExpired a now).ips now).candidate with
  | none =>
    have ha' : (s.dropExpired a now).session = some a := ha
    have hret := (calm_nextIdle ha'
      (a.selectCandidate (s.dropExpired a now).ids (s.dropExpired a now).ips now) random
      now).returns hdrop
    exact ⟨hret.safe, hret.cool, hret.fallback, hret.used⟩
  | some c =>
    obtain ⟨hmem, he⟩ := selectCandidate_spec hc
    have hreg := hdrop.register ha hready hreserving hmem he hparallel
    refine ⟨hreg, ?_, ?_, ?_⟩
    · rintro r ⟨⟩ hkind m hm hconcerns
      exact he.cool hdrop hkind hm hconcerns
    · exact .of_some ha rfl (fun id c' hc' hkind =>
        ⟨c', (register_kind a _ id hc' hkind).2, hkind⟩)
    · rintro r ⟨⟩ hkind
      obtain ⟨row, hrow, rfl⟩ := List.mem_map.1 hmem
      have hkey := (hs.tidy a ha).keyed.key row hrow
      have hget : a.candidates.get? row.1 = some row := Table.get?_key hrow
      refine ⟨⟨a, row.2, ha, ?_, hkind⟩, ?_⟩
      · show a.candidates.get? row.2.node.id = some (row.2.node.id, row.2)
        simpa [hkey] using hget
      · rintro ⟨b, c', ⟨⟩, hc', hkind'⟩
        exact (register_kind a _ _ hc' hkind').1 rfl

theorem nextRound_returns (hs : s.Safe now out ends) {a : SamplingSession}
    (ha : s.session = some a) (hready : s.ready? = none) (hreserving : s.reserving? = none)
    (hparallel : a.inFlight.rows.length < a.config.parallelism) (output : OutputState)
    (random : NodeId) : Returns s now out ends (s.nextRound a output random now) := by
  have hpermit : Calm s { s with session := some { a with readyPermit := true } } :=
    .of_renews ha rfl rfl rfl rfl rfl ⟨rfl, rfl⟩ (fun t => permit_tidy t true)
      (permit_fallback a true)
  have hs' := hs.frame hpermit.toFrame
  unfold nextRound
  split
  · exact (Calm.refl s).returns hs
  split
  · exact Calm.returns (.of_eq rfl rfl rfl rfl rfl) hs
  simp only
  split
  · exact .after hpermit (Calm.returns (.of_eq rfl rfl rfl rfl rfl) hs')
  split
  · split
    · exact .after hpermit (Calm.returns (.of_eq rfl rfl rfl rfl rfl) hs')
    · exact .after hpermit ((calm_newRound rfl random now).returns hs')
  · exact .after hpermit (nextSelect_returns hs' rfl hready hreserving hparallel random)

theorem nextIn_returns (hs : s.Safe now out ends) {a b : SamplingSession}
    (ha : s.session = some a) (hready : s.ready? = none) (hreserving : s.reserving? = none)
    (hren : a.Renews b) (htidy : a.Tidy → b.Tidy) (hfallback : a.NoNewFallback b)
    (capacity : Nat) (output : OutputState) (random : NodeId) :
    Returns s now out ends (s.nextIn b capacity output random now) := by
  have hcalm : Calm s { s with
      session := some b
      status := { s.status with
        inFlight := b.inFlight.rows.length
        candidates := b.candidates.rows.length } } :=
    .of_renews ha rfl rfl rfl rfl rfl hren htidy hfallback
  have hs' := hs.frame hcalm.toFrame
  unfold nextIn
  simp only
  split
  · exact .after hcalm (Calm.returns (.of_eq rfl rfl rfl rfl rfl) hs')
  split
  · exact .after hcalm (Calm.returns (.of_eq rfl rfl rfl rfl rfl) hs')
  · rename_i hroom
    simp only [not_or, not_le] at hroom
    exact .after hcalm (nextRound_returns hs' rfl hready hreserving hroom.2 output random)

theorem waiting_of_free (h : s.storageBusy = false) : s.ready? = none ∧ s.reserving? = none := by
  unfold storageBusy at h
  unfold ready? reserving?
  cases hd : s.durable with
  | none => exact ⟨rfl, rfl⟩
  | some d =>
    rw [hd] at h
    simp only [Option.any_some, Bool.or_eq_false_iff] at h
    obtain ⟨⟨hreserving, -⟩, hready⟩ := h
    refine ⟨by simpa using hready, ?_⟩
    rw [Option.bind_some, show d.reserving = none by simpa using hreserving]
    rfl

/-- **`next` returns a request that nothing forbids.** -/
theorem next_returns (hs : s.Safe now out ends) (routing : RoutingTable) (capacity : Nat)
    (output : OutputState) (random : NodeId) :
    Returns s now out ends (s.next routing capacity now output random) := by
  have hdeadline : Calm s { s with deadline := none } := .of_eq rfl rfl rfl rfl rfl
  have hs' := hs.frame hdeadline.toFrame
  unfold next
  simp only
  split
  · exact .after hdeadline (Calm.returns (.of_eq rfl rfl rfl rfl rfl) hs')
  · rename_i hfree
    simp only [Bool.or_eq_true, not_or, Bool.not_eq_true] at hfree
    obtain ⟨hready, hreserving⟩ := waiting_of_free hfree.2
    split
    · exact hdeadline.returns hs
    · rename_i a ha
      refine .after hdeadline (nextIn_returns hs' ha hready hreserving ?_ ?_ ?_ capacity output
        random)
      · exact (SamplingSession.addNodes_renews _).trans ⟨rfl, rfl⟩
      · exact fun t => dropBad_tidy (SamplingSession.addNodes_tidy t _) routing now
      · exact (SamplingSession.addNodes_fallback _).trans (dropBad_fallback _ routing now)

end Sampler

end BtSniffer
