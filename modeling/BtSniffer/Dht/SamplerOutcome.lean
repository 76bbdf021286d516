import BtSniffer.Dht.SamplerInv

/-!
# Outcomes keep the invariant

* `Safe.abandonUnsent` — only the ends that belong to the request are lifted, and none while its
  session runs.
* `Safe.stop` — the requests in flight get an end each, and nothing is ready afterwards.
* `Safe.success`, `Safe.nodes`, `Safe.failure`, `Safe.uncertainSend`, `Safe.cancelRequest` — the end
  that an outcome records is kept.
-/

set_option autoImplicit false

namespace BtSniffer

open Relational

namespace Sampler

variable {s s' : Sampler} {now : Nat} {out : List Request} {ends : List CooldownEnd} {r : Request}

/-! ## A request is abandoned -/

/-- The ends that do not belong to the request. -/
def lift (r : Request) (ends : List CooldownEnd) : List CooldownEnd :=
  ends.filter (fun m => decide (m.owner ≠ some r.bare))

theorem mem_lift {m : CooldownEnd} : m ∈ lift r ends ↔ m ∈ ends ∧ m.owner ≠ some r.bare := by
  simp [lift]

/-- What follows `finished` in `abandon_unsent`. -/
theorem Safe.unsent (hs : (s.finished r).Safe now out ends)
    (hspare : (s.finished r).Spare now out ends r) {ends' : List CooldownEnd}
    (hsub : ∀ m ∈ ends', m ∈ ends)
    (hother : r.kind = .sample → ∀ m ∈ ends', now < m.until_ → ¬ m.Concerns r.node) (t : Nat) :
    (s.abandonUnsent r t).Safe now out ends' := by
  unfold Sampler.abandonUnsent
  refine Safe.frame ?_ (frame_delaySend _ t)
  split
  · rename_i hkind
    have hforget := hs.forget hspare hsub (hother hkind)
    cases r.lease with
    | none => exact hforget
    | some lease => exact hforget.frame (frame_pushSettlement _ _)
  · exact hs.mono (fun m hm hlt => ⟨hsub m hm, hlt⟩)

/-- **`abandon_unsent` lifts the ends of its request only.** -/
theorem Safe.abandonUnsent (hs : s.Safe now (r :: out) ends) (t : Nat) :
    (s.abandonUnsent r t).Safe now out (lift r ends) := by
  obtain ⟨hsafe, hspare, -⟩ := hs.finished
  refine hsafe.unsent hspare (fun m hm => (mem_lift.1 hm).1) ?_ t
  intro hkind m hm hlt hconcerns
  obtain ⟨hm, hne⟩ := mem_lift.1 hm
  exact hne (hspare.owned hkind m hm hlt hconcerns).1

/-- While the session of a request runs, nothing is lifted. -/
theorem Safe.abandonCurrent (hs : s.Safe now (r :: out) ends) (hcur : s.Current r) (t : Nat) :
    (s.abandonUnsent r t).Safe now out ends := by
  obtain ⟨hsafe, hspare, -⟩ := hs.finished
  refine hsafe.unsent hspare (fun m hm => hm) ?_ t
  intro hkind m hm hlt hconcerns
  exact (hs.owned m hm hlt r (List.mem_cons_self ..) hkind hconcerns).2 hcur

theorem finished_durable (s : Sampler) (r : Request) : (s.finished r).durable = s.durable := by
  unfold Sampler.finished
  cases s.session <;> rfl

theorem finished_generation (s : Sampler) (r : Request) :
    (s.finished r).generation = s.generation := by
  unfold Sampler.finished
  cases s.session <;> rfl

theorem finished_inFlight (s : Sampler) (r : Request) {b : SamplingSession}
    (hb : (s.finished r).session = some b) :
    ∃ a, s.session = some a ∧ b.inFlight.rows ⊆ a.inFlight.rows := by
  unfold Sampler.finished at hb
  cases ha : s.session with
  | none =>
    rw [ha] at hb
    simp only at hb
    rw [ha] at hb
    cases hb
  | some a =>
    rw [ha] at hb
    cases hb
    exact ⟨a, rfl, fun e he => (Table.mem_erase.1 he).1⟩

/-- `abandon_unsent` leaves the other requests of the sampler alone. -/
theorem abandonUnsent_ready (s : Sampler) (r : Request) (t : Nat) :
    (s.abandonUnsent r t).ready? = s.ready? := by
  unfold Sampler.abandonUnsent
  rw [(frame_delaySend _ t).ready]
  have hfinished : (s.finished r).ready? = s.ready? := by
    unfold ready?
    rw [finished_durable]
  split
  · cases r.lease with
    | none => exact hfinished
    | some lease => exact (frame_pushSettlement _ _).ready.trans hfinished
  · exact hfinished

/-! ## The sampler stops -/

@[simp] theorem ready?_clear (s : Sampler) :
    (s.mapDurable (fun d => { d with ready := none })).ready? = none := by
  unfold ready? mapDurable
  cases s.durable <;> rfl

@[simp] theorem reserving?_clear (s : Sampler) :
    (s.mapDurable (fun d => { d with ready := none })).reserving? = s.reserving? := by
  unfold reserving? mapDurable
  cases s.durable <;> rfl

/-- The request that is ready is taken out of the sampler. -/
theorem Safe.takeReady (hs : s.Safe now out ends) (hr : s.ready? = some r) :
    (s.mapDurable (fun d => { d with ready := none })).Safe now (r :: out) ends ∧ s.Current r := by
  have hlive : (s.live out).Perm
      ((s.mapDurable (fun d => { d with ready := none })).live (r :: out)) := by
    simp only [Sampler.live, ready?_clear, reserving?_clear, hr]
    simp
  have hmem : ∀ q, q ∈ (r :: out) ++ ([] : List Request) → q ∈ out ++ s.ready?.toList := by
    intro q hq
    rw [hr]
    rcases List.mem_cons.1 (by simpa using hq) with rfl | hq
    · simp
    · exact List.mem_append_left _ hq
  refine ⟨?_, ?_⟩
  · refine { hs with
      sent := ?_, current := ?_, waits := ?_, idle := ?_
      ids := (hlive.map _).nodup_iff.1 hs.ids
      ips := (hlive.map _).nodup_iff.1 hs.ips
      kept := fun m hm hlt => ⟨(hs.kept m hm hlt).id, (hs.kept m hm hlt).ip⟩
      owned := fun m hm hlt q hq => hs.owned m hm hlt q (hlive.mem_iff.2 hq) }
    · intro a ha q hq
      rw [ready?_clear] at hq
      exact hs.sent a ha q (hmem q hq)
    · intro q hq
      rw [ready?_clear] at hq
      exact hs.current q (hmem q hq)
    · intro q hq
      rw [reserving?_clear] at hq
      rcases hs.waits q hq with hw | ⟨-, -, hnone, -⟩
      · exact .inl hw
      · rw [hr] at hnone
        cases hnone
    · intro _
      exact ready?_clear s
  · refine ⟨?_, hs.current r (by simp [hr])⟩
    cases hsession : s.session with
    | none =>
      rw [hs.idle hsession] at hr
      cases hr
    | some a => rfl

/-- **A request that is ready is given up without an end.** -/
theorem Safe.dropReady (hs : s.Safe now out ends) (t : Nat) :
    (s.dropReady t).Safe now out ends ∧ (s.dropReady t).ready? = none := by
  unfold Sampler.dropReady
  cases hr : s.durable.bind Durable.ready with
  | none => exact ⟨hs, hr⟩
  | some r =>
    obtain ⟨hsafe, hcur⟩ := hs.takeReady hr
    refine ⟨hsafe.abandonCurrent hcur t, ?_⟩
    rw [abandonUnsent_ready, ready?_clear]

/-- The ends that the second part of `stop` records. -/
def haltEnds (s : Sampler) (a : SamplingSession) (out : List Request) (t : Nat) :
    List CooldownEnd :=
  a.inFlight.rows.map (fun e =>
    ⟨e.1, e.2, t + UNSUPPORTED_FOR, ((s.live out).find? (fun r => decide (r.place = e))).map
      Request.bare⟩)

theorem kept_hold {m : CooldownEnd} (h : s.Kept m) (a : SamplingSession) (t : Nat) :
    (s.holdInFlight a t).Kept m := by
  obtain ⟨⟨c, hc, hid⟩, u, hu, hip⟩ := h
  constructor
  · simp only [holdInFlight, Table.get?_update, hc, Option.map_some]
    split
    · exact ⟨_, rfl, hid.trans (le_max_left _ _)⟩
    · exact ⟨c, rfl, hid⟩
  · simp only [holdInFlight, Table.get?_update, hu, Option.map_some]
    split
    · exact ⟨_, rfl, hip.trans (le_max_left _ _)⟩
    · exact ⟨u, rfl, hip⟩

/-- A live request of a session that runs has its place, or there is none. -/
theorem Safe.place (hs : s.Safe now out ends) {a : SamplingSession} (ha : s.session = some a)
    (hr : r ∈ s.live out) : r.place ∈ a.inFlight.rows ∨ a.inFlight.rows = [] := by
  rcases mem_live.1 hr with hr | hr | hr
  · exact .inl (hs.sent a ha r (List.mem_append_left _ hr))
  · exact .inl (hs.sent a ha r (List.mem_append_right _ (by simp [hr])))
  · rcases hs.waits r hr with ⟨-, hplace⟩ | ⟨-, -, -, hempty⟩
    · exact .inl (hplace a ha)
    · exact .inr (hempty a ha)

/-- The end of a place belongs to the request that has it. -/
theorem Safe.owner (hs : s.Safe now out ends) {a : SamplingSession} (ha : s.session = some a)
    (hr : r ∈ s.live out) {e : NodeId × IpAddr} (he : e ∈ a.inFlight.rows)
    (h : e.1 = r.node.id ∨ e.2 = r.node.ip) :
    (s.live out).find? (fun q => decide (q.place = e)) = some r := by
  have hplace : r.place ∈ a.inFlight.rows := by
    rcases hs.place ha hr with hplace | hempty
    · exact hplace
    · rw [hempty] at he
      cases he
  obtain rfl : e = r.place := place_eq (hs.tidy a ha) he hplace h
  cases hfind : (s.live out).find? (fun q => decide (q.place = r.place)) with
  | none => exact absurd (List.find?_eq_none.1 hfind r hr) (by simp)
  | some q =>
    have hq : q.place = r.place := by simpa using List.find?_some hfind
    have hid : q.node.id = r.node.id := congrArg Prod.fst hq
    rw [List.inj_on_of_nodup_map hs.ids (List.mem_of_find?_eq_some hfind) hr hid]

/-- The second part of `stop`. -/
theorem Safe.halt (hs : s.Safe now out ends) {a : SamplingSession} (ha : s.session = some a)
    (hready : s.ready? = none) (t : Nat) :
    Safe { s.holdInFlight a t with session := none } now out (s.haltEnds a out t ++ ends) where
  tidy := by
    rintro b ⟨⟩
  tracked := by
    rintro b ⟨⟩
  bounded := by
    rintro b ⟨⟩
  sent := by
    rintro b ⟨⟩
  current := hs.current
  waits := by
    intro r hr
    rcases hs.waits r hr with ⟨hgen, -⟩ | ⟨hgen, hnil, hnone, -⟩
    · exact .inl ⟨hgen, by rintro b ⟨⟩⟩
    · exact .inr ⟨hgen, hnil, hnone, by rintro b ⟨⟩⟩
  idle := fun _ => hready
  ids := hs.ids
  ips := hs.ips
  kept := by
    intro m hm hlt
    rcases List.mem_append.1 hm with hm | hm
    · obtain ⟨e, he, rfl⟩ := List.mem_map.1 hm
      obtain ⟨hid, hip⟩ := hs.tracked a ha e he
      obtain ⟨x, hx⟩ := Option.isSome_iff_exists.1 hid
      obtain ⟨y, hy⟩ := Option.isSome_iff_exists.1 hip
      have hxk : x.1 = e.1 := (Table.get?_eq_some.1 hx).2
      have hyk : y.1 = e.2 := (Table.get?_eq_some.1 hy).2
      have hflight : a.isInFlight x.1 = true :=
        SamplingSession.isInFlight_iff.2 ⟨e.2, by rw [hxk]; exact he⟩
      have hbusy : a.isBusy y.1 = true :=
        SamplingSession.isBusy_iff.2 ⟨e.1, by rw [hyk]; exact he⟩
      constructor
      · simp only [holdInFlight, Table.get?_update, hx, Option.map_some, hflight, if_true]
        exact ⟨_, by rw [hxk], le_max_right _ _⟩
      · simp only [holdInFlight, Table.get?_update, hy, Option.map_some, hbusy, if_true]
        exact ⟨_, by rw [hyk], le_max_right _ _⟩
    · obtain ⟨hid, hip⟩ := kept_hold (hs.kept m hm hlt) a t
      exact ⟨hid, hip⟩
  owned := by
    intro m hm hlt r hr hkind hconcerns
    refine ⟨?_, fun hcur => by cases hcur.1⟩
    rcases List.mem_append.1 hm with hm | hm
    · obtain ⟨e, he, rfl⟩ := List.mem_map.1 hm
      simp only
      rw [hs.owner ha hr he hconcerns]
      rfl
    · exact (hs.owned m hm hlt r hr hkind hconcerns).1

/-- The ends that `stop` records. -/
def stopEnds (s : Sampler) (out : List Request) (t : Nat) : List CooldownEnd :=
  match (s.dropReady t).session with
  | none => []
  | some a => (s.dropReady t).haltEnds a out t

/-- **`stop` records an end for each request in flight.** -/
theorem Safe.stop (hs : s.Safe now out ends) (t : Nat) :
    (s.stop t).Safe now out (s.stopEnds out t ++ ends) := by
  obtain ⟨hsafe, hready⟩ := hs.dropReady t
  unfold Sampler.stop stopEnds
  cases ha : (s.dropReady t).session with
  | none =>
    simp only [ha]
    exact hsafe.frame (.of_session rfl rfl rfl rfl rfl ha.symm)
  | some a =>
    simp only [ha]
    exact (hsafe.halt ha hready t).frame (.of_session rfl rfl rfl rfl rfl rfl)

theorem Safe.markStorageFault (hs : s.Safe now out ends) (error : StorageError) (t : Nat) :
    (s.markStorageFault error t).Safe now out ends := by
  unfold Sampler.markStorageFault
  exact ((hs.stop t).mono (fun m hm hlt => ⟨List.mem_append_right _ hm, hlt⟩)).frame
    (frame_status _ _)

/-! ## Outcomes -/

/-- `settle_request` waits for the database, or the storage fault ends the session. -/
theorem Safe.settleRequest (hs : s.Safe now out ends) (r : Request) (t current : Nat) :
    (s.settleRequest r t current).Safe now out ends := by
  unfold Sampler.settleRequest
  split
  · split
    · exact hs.markStorageFault _ current
    · simp only
      split
      · exact hs.frame (frame_pushSettlement _ _)
      · exact hs.markStorageFault _ current
  · exact hs

/-- The end that `success` records: none without a session or when the clock fails. -/
def successEnds (s : Sampler) (r : Request) (interval t : Nat) : List CooldownEnd :=
  match s.session, s.durable.map (fun d : Durable => d.clock.wallAt t) with
  | none, _ => []
  | some _, some (.error _) => []
  | some a, _ => [endOf r (t + max interval a.config.minimumInterval)]

theorem finished_session (s : Sampler) (r : Request) :
    (s.session = none ∧ (s.finished r).session = none) ∨
      ∃ a b, s.session = some a ∧ (s.finished r).session = some b ∧ b.config = a.config := by
  unfold Sampler.finished
  cases ha : s.session with
  | none => exact .inl ⟨rfl, ha⟩
  | some a => exact .inr ⟨a, _, rfl, rfl, rfl⟩

/-- **`success` keeps the end it records.** -/
theorem Safe.success (hs : s.Safe now (r :: out) ends) (response : SampleResponse)
    (routing : RoutingTable) (t current : Nat) :
    (s.success r response routing t current).Safe now out
      (s.successEnds r response.interval t ++ ends) := by
  obtain ⟨hsafe, hspare, htracks⟩ := hs.finished
  unfold Sampler.success successEnds
  rcases finished_session s r with ⟨hnone, hnone'⟩ | ⟨a, b, ha, hb, hconfig⟩
  · simp only [hnone, hnone']
    exact hsafe
  · simp only [ha, hb, hconfig, finished_durable]
    have hcool := ((hsafe.cooldown hspare.apart htracks
      (t + max response.interval a.config.minimumInterval) 0).settleRequest r t current).frame
        (frame_addNodes _ response.nodes routing t)
    cases s.durable.map (fun d : Durable => d.clock.wallAt t) with
    | none => exact hcool.frame (frame_status _ _)
    | some result =>
      cases result with
      | error e => exact hsafe.markStorageFault _ current
      | ok at_ => exact hcool.frame (frame_status _ _)

/-- The end that `nodes` records. -/
def nodesEnds (r : Request) (t : Nat) : List CooldownEnd :=
  if r.kind = .sample then [endOf r (t + UNSUPPORTED_FOR)] else []

theorem Apart.frame (h : s.Apart out r) (hf : Frame s s') : s'.Apart out r := by
  unfold Apart
  rw [hf.live]
  exact h

theorem Tracks.frame (h : s.Tracks r) (hf : Frame s s') : s'.Tracks r := by
  unfold Tracks
  rw [hf.ids, hf.ips]
  rcases hf.session with ⟨h₁, h₂⟩ | ⟨a, b, h₁, h₂, -, -⟩
  · rw [h₂]
    intro hsome
    cases hsome
  · intro _
    exact h (by rw [h₁]; rfl)

/-- **`nodes` keeps the end it records.** -/
theorem Safe.nodes (hs : s.Safe now (r :: out) ends) (nodes : List DiscoveredNode)
    (routing : RoutingTable) (t current : Nat) :
    (s.nodes r nodes routing t current).Safe now out (nodesEnds r t ++ ends) := by
  obtain ⟨hsafe, hspare, htracks⟩ := hs.finished
  unfold Sampler.nodes nodesEnds
  refine Safe.frame (Safe.settleRequest ?_ r t current) (frame_addNodes _ nodes routing t)
  split
  · have hf : Frame (s.finished r) (s.finished r).countUnsupported := frame_status _ _
    exact (hsafe.frame hf).cooldown (hspare.apart.frame hf) (htracks.frame hf) _ 0
  · exact hsafe

/-- The end that `failure` records. -/
def failureEnds (s : Sampler) (r : Request) (error : QueryError) (t : Nat) : List CooldownEnd :=
  match s.session with
  | none => []
  | some a =>
    if r.kind = .sample ∧ error.isUnsupported then [endOf r (t + UNSUPPORTED_FOR)]
    else [endOf r (t + backoff a.config (s.failuresAfter r.node.id))]

theorem finished_ids (s : Sampler) (r : Request) : (s.finished r).ids = s.ids := by
  unfold Sampler.finished
  cases s.session <;> rfl

/-- **`failure` keeps the end it records.** -/
theorem Safe.failure (hs : s.Safe now (r :: out) ends) (error : QueryError) (t current : Nat) :
    (s.failure r error t current).Safe now out (s.failureEnds r error t ++ ends) := by
  obtain ⟨hsafe, hspare, htracks⟩ := hs.finished
  unfold Sampler.failure failureEnds
  rcases finished_session s r with ⟨hnone, hnone'⟩ | ⟨a, b, ha, hb, hconfig⟩
  · simp only [hnone, hnone']
    exact hsafe
  · simp only [ha, hb, hconfig]
    refine Safe.settleRequest ?_ r t current
    split
    · have hf : Frame (s.finished r) ((s.finished r).markFallback r.node.id).countUnsupported :=
        (frame_markFallback _ _).trans (frame_status _ _)
      exact (hsafe.frame hf).cooldown (hspare.apart.frame hf) (htracks.frame hf) _ 0
    · have hfailures : (s.finished r).failuresAfter r.node.id = s.failuresAfter r.node.id := by
        unfold failuresAfter
        rw [finished_ids]
      rw [hfailures, ← hb]
      have hf := frame_status (s.finished r)
        { (s.finished r).status with failed := (s.finished r).status.failed + 1 }
      exact (hsafe.frame hf).cooldown (hspare.apart.frame hf) (htracks.frame hf) _ _

/-- The end that `cancel_request` records. -/
def cancelEnds (r : Request) (t : Nat) : List CooldownEnd :=
  match r.lease with
  | none => []
  | some lease =>
    match checkedAdd t ((max lease.durationMs 21600000).toNat * 1000000) with
    | none => []
    | some until_ => [endOf r until_]

/-- What `cancel_request` does once the request is no longer out. -/
theorem Safe.cancelled (hs : s.Safe now out ends) (hapart : s.Apart out r)
    (htracks : s.Tracks r) (t current : Nat) :
    (s.cancelRequest r t current).Safe now out (cancelEnds r t ++ ends) := by
  unfold Sampler.cancelRequest cancelEnds
  -- the sum stays opaque, else the kernel unrolls its product
  obtain ⟨add, hadd⟩ : ∃ add, checkedAdd = add := ⟨_, rfl⟩
  rw [hadd]
  cases r.lease with
  | none => exact hs
  | some lease =>
    simp only
    cases add t ((max lease.durationMs 21600000).toNat * 1000000) with
    | none => exact hs.markStorageFault _ current
    | some until_ =>
      have hcool := hs.cooldown hapart htracks until_ 0
      simp only
      split
      · exact hcool
      · exact hcool.frame (frame_pushSettlement _ _)

/-- **`uncertain_send` keeps the end it records.** -/
theorem Safe.uncertainSend (hs : s.Safe now (r :: out) ends) (t current : Nat) :
    (s.uncertainSend r t current).Safe now out (cancelEnds r t ++ ends) := by
  obtain ⟨hsafe, hspare, htracks⟩ := hs.finished
  exact hsafe.cancelled hspare.apart htracks t current

/-- **`cancel_request` keeps the end it records.** Its place stays in flight. -/
theorem Safe.cancelRequest (hs : s.Safe now (r :: out) ends) (t current : Nat) :
    (s.cancelRequest r t current).Safe now out (cancelEnds r t ++ ends) :=
  hs.drop.cancelled hs.apart hs.tracks t current

end Sampler

end BtSniffer
