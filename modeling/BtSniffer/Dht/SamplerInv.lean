import BtSniffer.Dht.SamplerSession

/-!
# The invariant of the sampler

`Safe` relates the sampler to the requests that its callers hold and to the cooldown ends that were
recorded.

* `CooldownEnd` — an end that was recorded for a Node ID and an IP.
* `Frame` — a step that changes neither cooldowns nor requests.
* `Spare` — what is known of a request that was just given back.
* `Safe.finished`, `Safe.cooldown`, `Safe.forget`, `Safe.stop` — what the parts of the outcomes keep.
-/

set_option autoImplicit false

namespace BtSniffer

open Relational

/-! ## Requests and ends -/

/-- A request without its lease: a lease is added while the request waits. -/
def Request.bare (r : Request) : Request := { r with lease := none }

/-- The place of a request in `in_flight`. -/
def Request.place (r : Request) : NodeId × IpAddr := (r.node.id, r.node.ip)

/-- An end of a cooldown. One that `stop` records belongs to the request in flight, if it is still
out. -/
structure CooldownEnd where
  id : NodeId
  ip : IpAddr
  until_ : Nat
  owner : Option Request
  deriving DecidableEq, Repr

/-- An end is about the Node ID or the IP of a node. -/
def CooldownEnd.Concerns (m : CooldownEnd) (node : DiscoveredNode) : Prop :=
  m.id = node.id ∨ m.ip = node.ip

namespace Sampler

variable {s s' : Sampler}

/-- The request that has its lease and was not taken. -/
def ready? (s : Sampler) : Option Request := s.durable.bind Durable.ready

/-- The request that waits for its lease. -/
def reserving? (s : Sampler) : Option Request :=
  s.durable.bind (fun d => d.reserving.map Reservation.request)

/-- All requests that were returned by `next` and not given back. -/
def live (s : Sampler) (out : List Request) : List Request :=
  out ++ (s.ready?.toList ++ s.reserving?.toList)

/-- The request belongs to the session that runs. -/
def Current (s : Sampler) (r : Request) : Prop := s.session.isSome ∧ r.generation = s.generation

/-! ## Steps that do not matter -/

/-- Cooldowns, requests and what is in flight stay. -/
structure Frame (s s' : Sampler) : Prop where
  ids : s'.ids = s.ids
  ips : s'.ips = s.ips
  ready : s'.ready? = s.ready?
  reserving : s'.reserving? = s.reserving?
  generation : s'.generation = s.generation
  session : (s.session = none ∧ s'.session = none) ∨
    ∃ a b, s.session = some a ∧ s'.session = some b ∧ a.Renews b ∧ (a.Tidy → b.Tidy)

/-- A step that leaves the session alone. -/
theorem Frame.of_session (hids : s'.ids = s.ids) (hips : s'.ips = s.ips)
    (hready : s'.ready? = s.ready?) (hreserving : s'.reserving? = s.reserving?)
    (hgeneration : s'.generation = s.generation) (hsession : s'.session = s.session) :
    Frame s s' where
  ids := hids
  ips := hips
  ready := hready
  reserving := hreserving
  generation := hgeneration
  session := by
    rw [hsession]
    cases hs : s.session with
    | none => exact .inl ⟨rfl, rfl⟩
    | some a => exact .inr ⟨a, a, rfl, rfl, .refl a, id⟩

theorem Frame.refl (s : Sampler) : Frame s s := .of_session rfl rfl rfl rfl rfl rfl

theorem Frame.trans {s₁ s₂ s₃ : Sampler} (h : Frame s₁ s₂) (h' : Frame s₂ s₃) : Frame s₁ s₃ where
  ids := h'.ids.trans h.ids
  ips := h'.ips.trans h.ips
  ready := h'.ready.trans h.ready
  reserving := h'.reserving.trans h.reserving
  generation := h'.generation.trans h.generation
  session := by
    rcases h.session with ⟨h₁, h₂⟩ | ⟨a, b, h₁, h₂, hren, htidy⟩ <;>
      rcases h'.session with ⟨h₂', h₃⟩ | ⟨b', c, h₂', h₃, hren', htidy'⟩
    · exact .inl ⟨h₁, h₃⟩
    · rw [h₂] at h₂'
      cases h₂'
    · rw [h₂] at h₂'
      cases h₂'
    · rw [h₂] at h₂'
      cases h₂'
      exact .inr ⟨a, c, h₁, h₃, hren.trans hren', htidy' ∘ htidy⟩

/-- A session is replaced. -/
theorem Frame.of_renews {a b : SamplingSession} (h : s.session = some a) (hren : a.Renews b)
    (htidy : a.Tidy → b.Tidy) : Frame s { s with session := some b } where
  ids := rfl
  ips := rfl
  ready := rfl
  reserving := rfl
  generation := rfl
  session := .inr ⟨a, b, h, rfl, hren, htidy⟩

theorem frame_settling (s : Sampler) (f : List Settlement → List Settlement) :
    Frame s (s.mapDurable (fun d => { d with settling := f d.settling })) := by
  refine .of_session rfl rfl ?_ ?_ rfl rfl
  · unfold ready? mapDurable
    cases s.durable <;> rfl
  · unfold reserving? mapDurable
    cases s.durable <;> rfl

theorem frame_pushSettlement (s : Sampler) (settlement : Settlement) :
    Frame s (s.pushSettlement settlement) :=
  frame_settling s (fun settling => settling ++ [settlement])

theorem frame_delaySend (s : Sampler) (now : Nat) : Frame s (s.delaySend now) := by
  unfold delaySend
  cases h : s.session with
  | none => exact .refl s
  | some a =>
    refine ⟨rfl, rfl, rfl, rfl, rfl, .inr ⟨a, _, h, rfl, ⟨rfl, rfl⟩, ?_⟩⟩
    exact fun t => ⟨⟨t.keyed.key, t.keyed.kept⟩, t.parallel, t.distinct, t.room, t.capacity⟩

theorem frame_addNodes (s : Sampler) (nodes : List DiscoveredNode) (routing : RoutingTable)
    (now : Nat) : Frame s (s.addNodes nodes routing now) := by
  unfold addNodes
  cases h : s.session with
  | none => exact .of_session rfl rfl rfl rfl rfl h.symm
  | some a =>
    exact .of_renews h (SamplingSession.addNodes_renews nodes)
      (fun t => SamplingSession.addNodes_tidy t nodes)

/-- Rows of candidates that keep their node keep a session tidy. -/
theorem tidy_update {a : SamplingSession} (t : a.Tidy) (p : CandidateRow → Bool)
    (f : CandidateRow → CandidateRow) (hf : ∀ row, (f row).1 = row.1)
    (hnode : ∀ row, (f row).2.node = row.2.node) :
    SamplingSession.Tidy { a with candidates := a.candidates.update p f hf } where
  keyed := by
    refine ⟨?_, ?_⟩
    · intro row hrow
      simp only [Table.rows_update, List.mem_map] at hrow
      obtain ⟨row', hrow', rfl⟩ := hrow
      have hkey := t.keyed.key row' hrow'
      split
      · rw [hf, hnode]
        exact hkey
      · exact hkey
    · intro e he
      obtain ⟨c, hc, hip⟩ := t.keyed.kept e he
      simp only [Table.get?_update, hc, Option.map_some]
      split
      · refine ⟨(f (e.1, c)).2, ?_, ?_⟩
        · exact congrArg some (Prod.ext (hf (e.1, c)) rfl)
        · unfold DiscoveredNode.ip
          rw [hnode]
          exact hip
      · exact ⟨c, rfl, hip⟩
  parallel := t.parallel
  distinct := t.distinct
  room := t.room
  capacity := by
    simp only [Table.rows_update, List.length_map]
    exact t.capacity

theorem frame_markFallback (s : Sampler) (id : NodeId) : Frame s (s.markFallback id) := by
  unfold markFallback
  cases h : s.session with
  | none => exact .of_session rfl rfl rfl rfl rfl h.symm
  | some a => exact .of_renews h ⟨rfl, rfl⟩ (fun t => tidy_update t _ _ _ (fun _ => rfl))

theorem frame_status (s : Sampler) (status : SamplerStatus) : Frame s { s with status := status } :=
  .of_session rfl rfl rfl rfl rfl rfl

/-! ## The invariant -/

/-- The request waits for its lease in its own session, or its session is over and nothing else is
out. -/
def Waits (s : Sampler) (out : List Request) (r : Request) : Prop :=
  (r.generation = s.generation ∧ ∀ a, s.session = some a → r.place ∈ a.inFlight.rows) ∨
    (r.generation < s.generation ∧ out = [] ∧ s.ready? = none ∧
      ∀ a, s.session = some a → a.inFlight.rows = [])

/-- The end is still kept for the Node ID and for the IP. -/
structure Kept (s : Sampler) (m : CooldownEnd) : Prop where
  id : ∃ c, s.ids.get? m.id = some (m.id, c) ∧ m.until_ ≤ c.until_
  ip : ∃ u, s.ips.get? m.ip = some (m.ip, u) ∧ m.until_ ≤ u

/-- The invariant: `out` are the requests that callers hold, `ends` the ends that were recorded and
not lifted. -/
structure Safe (s : Sampler) (now : Nat) (out : List Request) (ends : List CooldownEnd) :
    Prop where
  tidy : ∀ a, s.session = some a → a.Tidy
  tracked : ∀ a, s.session = some a → ∀ e ∈ a.inFlight.rows,
    (s.ids.get? e.1).isSome ∧ (s.ips.get? e.2).isSome
  bounded : ∀ a, s.session = some a → s.ids.rows.length ≤ a.config.cooldownCapacity ∧
    s.ips.rows.length ≤ a.config.cooldownCapacity
  sent : ∀ a, s.session = some a → ∀ r ∈ out ++ s.ready?.toList, r.place ∈ a.inFlight.rows
  current : ∀ r ∈ out ++ s.ready?.toList, r.generation = s.generation
  waits : ∀ r, s.reserving? = some r → s.Waits out r
  idle : s.session = none → s.ready? = none
  ids : ((s.live out).map (fun r => r.node.id)).Nodup
  ips : ((s.live out).map (fun r => r.node.ip)).Nodup
  kept : ∀ m ∈ ends, now < m.until_ → s.Kept m
  owned : ∀ m ∈ ends, now < m.until_ → ∀ r ∈ s.live out, r.kind = .sample →
    m.Concerns r.node → m.owner = some r.bare ∧ ¬ s.Current r

variable {now : Nat} {out : List Request} {ends : List CooldownEnd} {r : Request}

theorem Frame.current (h : Frame s s') : s'.Current r ↔ s.Current r := by
  unfold Current
  rw [h.generation]
  rcases h.session with ⟨h₁, h₂⟩ | ⟨a, b, h₁, h₂, -, -⟩ <;> rw [h₁, h₂]
  simp

theorem Frame.live (h : Frame s s') : s'.live out = s.live out := by
  unfold Sampler.live
  rw [h.ready, h.reserving]

/-- A session after the step renews the one before. -/
theorem Frame.back (h : Frame s s') {b : SamplingSession} (hb : s'.session = some b) :
    ∃ a, s.session = some a ∧ a.Renews b ∧ (a.Tidy → b.Tidy) := by
  rcases h.session with ⟨-, h₂⟩ | ⟨a, b', h₁, h₂, hren, htidy⟩
  · rw [h₂] at hb
    cases hb
  · rw [h₂] at hb
    cases hb
    exact ⟨a, h₁, hren, htidy⟩

theorem Frame.waits (h : Frame s s') (hw : s.Waits out r) : s'.Waits out r := by
  unfold Waits
  rw [h.generation, h.ready]
  rcases hw with ⟨hgen, hplace⟩ | ⟨hgen, hout, hready, hempty⟩
  · refine .inl ⟨hgen, fun b hb => ?_⟩
    obtain ⟨a, ha, hren, -⟩ := h.back hb
    rw [hren.inFlight]
    exact hplace a ha
  · refine .inr ⟨hgen, hout, hready, fun b hb => ?_⟩
    obtain ⟨a, ha, hren, -⟩ := h.back hb
    rw [hren.inFlight]
    exact hempty a ha

/-- **A step that does not matter keeps the invariant.** -/
theorem Safe.frame (hs : s.Safe now out ends) (h : Frame s s') : s'.Safe now out ends where
  tidy := by
    intro b hb
    obtain ⟨a, ha, -, htidy⟩ := h.back hb
    exact htidy (hs.tidy a ha)
  tracked := by
    intro b hb
    obtain ⟨a, ha, hren, -⟩ := h.back hb
    rw [h.ids, h.ips, hren.inFlight]
    exact hs.tracked a ha
  bounded := by
    intro b hb
    obtain ⟨a, ha, hren, -⟩ := h.back hb
    rw [h.ids, h.ips, hren.config]
    exact hs.bounded a ha
  sent := by
    intro b hb
    obtain ⟨a, ha, hren, -⟩ := h.back hb
    rw [h.ready, hren.inFlight]
    exact hs.sent a ha
  current := by
    rw [h.ready, h.generation]
    exact hs.current
  waits := by
    rw [h.reserving]
    exact fun r hr => h.waits (hs.waits r hr)
  idle := by
    intro hnone
    rw [h.ready]
    rcases h.session with ⟨h₁, -⟩ | ⟨a, b, -, h₂, -, -⟩
    · exact hs.idle h₁
    · rw [h₂] at hnone
      cases hnone
  ids := by
    rw [h.live]
    exact hs.ids
  ips := by
    rw [h.live]
    exact hs.ips
  kept := by
    intro m hm hlt
    obtain ⟨hid, hip⟩ := hs.kept m hm hlt
    exact ⟨by rw [h.ids]; exact hid, by rw [h.ips]; exact hip⟩
  owned := by
    intro m hm hlt r hr hkind hconcerns
    rw [h.live] at hr
    rw [h.current]
    exact hs.owned m hm hlt r hr hkind hconcerns

/-- Ends that were not recorded do not matter, and neither do those that have passed. -/
theorem Safe.mono (hs : s.Safe now out ends) {now' : Nat} {ends' : List CooldownEnd}
    (h : ∀ m ∈ ends', now' < m.until_ → m ∈ ends ∧ now < m.until_) : s.Safe now' out ends' :=
  { hs with
    kept := fun m hm hlt => hs.kept m (h m hm hlt).1 (h m hm hlt).2
    owned := fun m hm hlt => hs.owned m (h m hm hlt).1 (h m hm hlt).2 }

theorem Safe.later (hs : s.Safe now out ends) {now' : Nat} (h : now ≤ now') :
    s.Safe now' out ends :=
  hs.mono (fun _ hm hlt => ⟨hm, by omega⟩)

theorem mem_live : r ∈ s.live out ↔ r ∈ out ∨ s.ready? = some r ∨ s.reserving? = some r := by
  simp [live]

theorem Safe.perm (hs : s.Safe now out ends) {out' : List Request} (h : out.Perm out') :
    s.Safe now out' ends := by
  have hlive : (s.live out).Perm (s.live out') := h.append_right _
  have hmem : ∀ r, r ∈ out' ++ s.ready?.toList → r ∈ out ++ s.ready?.toList :=
    fun r hr => (h.append_right _).mem_iff.2 hr
  refine { hs with
    sent := fun a ha r hr => hs.sent a ha r (hmem r hr)
    current := fun r hr => hs.current r (hmem r hr)
    waits := ?_
    ids := (hlive.map _).nodup_iff.1 hs.ids
    ips := (hlive.map _).nodup_iff.1 hs.ips
    owned := fun m hm hlt r hr => hs.owned m hm hlt r (hlive.mem_iff.2 hr) }
  intro r hr
  rcases hs.waits r hr with hw | ⟨hgen, rfl, hrest⟩
  · exact .inl hw
  · exact .inr ⟨hgen, h.nil_eq.symm, hrest⟩

/-- A request that is out is dropped. -/
theorem Safe.drop (hs : s.Safe now (r :: out) ends) : s.Safe now out ends := by
  have hlive : ∀ q, q ∈ s.live out → q ∈ s.live (r :: out) := fun q hq => List.mem_cons_of_mem r hq
  refine { hs with
    sent := fun a ha q hq => hs.sent a ha q (List.mem_cons_of_mem r hq)
    current := fun q hq => hs.current q (List.mem_cons_of_mem r hq)
    waits := ?_
    ids := (List.nodup_cons.1 hs.ids).2
    ips := (List.nodup_cons.1 hs.ips).2
    owned := fun m hm hlt q hq => hs.owned m hm hlt q (hlive q hq) }
  intro q hq
  rcases hs.waits q hq with hw | ⟨-, hnil, -⟩
  · exact .inl hw
  · cases hnil

/-! ## A request is given back -/

/-- No live request has the Node ID or the IP of `r`. -/
def Apart (s : Sampler) (out : List Request) (r : Request) : Prop :=
  ∀ q ∈ s.live out, q.node.id ≠ r.node.id ∧ q.node.ip ≠ r.node.ip

/-- The request `r` was given back: nothing else has its Node ID or its IP. -/
structure Spare (s : Sampler) (now : Nat) (out : List Request) (ends : List CooldownEnd)
    (r : Request) : Prop where
  apart : s.Apart out r
  landed : ∀ a, s.session = some a → ∀ e ∈ a.inFlight.rows, e.1 ≠ r.node.id ∧ e.2 ≠ r.node.ip
  owned : r.kind = .sample → ∀ m ∈ ends, now < m.until_ → m.Concerns r.node →
    m.owner = some r.bare ∧ ¬ s.Current r

/-- The cooldowns of a request have their rows while a session runs. -/
def Tracks (s : Sampler) (r : Request) : Prop :=
  s.session.isSome → (s.ids.get? r.node.id).isSome ∧ (s.ips.get? r.node.ip).isSome

/-- A request that is out has its Node ID and its IP alone. -/
theorem Safe.apart (hs : s.Safe now (r :: out) ends) : s.Apart out r := by
  have hids := hs.ids
  have hips := hs.ips
  simp only [Sampler.live, List.cons_append, List.map_cons, List.nodup_cons] at hids hips
  intro q hq
  constructor
  · intro heq
    exact hids.1 (heq ▸ List.mem_map_of_mem hq)
  · intro heq
    exact hips.1 (heq ▸ List.mem_map_of_mem hq)

/-- The cooldowns of a request that is out have their rows. -/
theorem Safe.tracks (hs : s.Safe now (r :: out) ends) : s.Tracks r := by
  intro hsome
  obtain ⟨a, ha⟩ := Option.isSome_iff_exists.1 hsome
  exact hs.tracked a ha r.place (hs.sent a ha r (List.mem_cons_self ..))

/-- `in_flight` without a Node ID keeps a session tidy. -/
theorem tidy_land {a : SamplingSession} (t : a.Tidy) (id : NodeId) :
    SamplingSession.Tidy { a with inFlight := a.inFlight.erase id } where
  keyed := ⟨t.keyed.key, fun e he => t.keyed.kept e (Table.mem_erase.1 he).1⟩
  parallel := (Table.length_erase_le _ _).trans t.parallel
  distinct := (List.filter_sublist.map _).nodup t.distinct
  room := t.room
  capacity := t.capacity

/-- A Node ID that no live request has is taken out of `in_flight`. -/
theorem Safe.land (hs : s.Safe now out ends) {a : SamplingSession} (ha : s.session = some a)
    {id : NodeId} (hapart : ∀ q ∈ s.live out, q.node.id ≠ id) :
    Safe { s with session := some { a with inFlight := a.inFlight.erase id } } now out ends := by
  have hout : ∀ q ∈ out ++ s.ready?.toList, q ∈ s.live out := by
    intro q hq
    rw [mem_live]
    rcases List.mem_append.1 hq with hq | hq
    · exact .inl hq
    · exact .inr (.inl (by simpa using hq))
  refine { hs with
    tidy := ?_, tracked := ?_, bounded := ?_, sent := ?_, waits := ?_, idle := ?_,
    kept := ?_, owned := ?_ }
  · rintro b ⟨⟩
    exact tidy_land (hs.tidy a ha) id
  · rintro b ⟨⟩ e he
    exact hs.tracked a ha e (Table.mem_erase.1 he).1
  · rintro b ⟨⟩
    exact hs.bounded a ha
  · rintro b ⟨⟩ q hq
    exact Table.mem_erase.2 ⟨hs.sent a ha q hq, hapart q (hout q hq)⟩
  · intro q hq
    rcases hs.waits q hq with ⟨hgen, hplace⟩ | ⟨hgen, hnil, hready, hempty⟩
    · refine .inl ⟨hgen, ?_⟩
      rintro b ⟨⟩
      exact Table.mem_erase.2 ⟨hplace a ha, hapart q (mem_live.2 (.inr (.inr hq)))⟩
    · refine .inr ⟨hgen, hnil, hready, ?_⟩
      rintro b ⟨⟩
      simp [Table.erase, hempty a ha]
  · intro hnone
    cases hnone
  · intro m hm hlt
    exact ⟨(hs.kept m hm hlt).id, (hs.kept m hm hlt).ip⟩
  · intro m hm hlt q hq hkind hconcerns
    have hown := hs.owned m hm hlt q hq hkind hconcerns
    refine ⟨hown.1, fun hcur => hown.2 ⟨?_, hcur.2⟩⟩
    rw [ha]
    rfl

/-- The place of a request is the only one with its IP. -/
theorem place_eq {a : SamplingSession} (t : a.Tidy) {e e' : NodeId × IpAddr}
    (he : e ∈ a.inFlight.rows) (he' : e' ∈ a.inFlight.rows) (h : e.1 = e'.1 ∨ e.2 = e'.2) :
    e = e' := by
  rcases h with h | h
  · exact Table.eq_of_key he he' h
  · exact List.inj_on_of_nodup_map t.distinct he he' h

theorem Safe.finish (hs : s.Safe now out ends) (hapart : s.Apart out r) :
    (s.finished r).Safe now out ends := by
  unfold Sampler.finished
  cases ha : s.session with
  | none => exact hs
  | some a => exact (hs.land ha (fun q hq => (hapart q hq).1)).frame (frame_status _ _)

/-- **`finished` gives the request back.** -/
theorem Safe.finished (hs : s.Safe now (r :: out) ends) :
    (s.finished r).Safe now out ends ∧ (s.finished r).Spare now out ends r ∧
      (s.finished r).Tracks r := by
  have hapart := hs.apart
  have howned : r.kind = .sample → ∀ m ∈ ends, now < m.until_ → m.Concerns r.node →
      m.owner = some r.bare ∧ ¬ s.Current r :=
    fun hkind m hm hlt => hs.owned m hm hlt r (List.mem_cons_self ..) hkind
  refine ⟨hs.drop.finish hapart, ?_⟩
  unfold Sampler.finished
  cases ha : s.session with
  | none =>
    refine ⟨⟨hapart, ?_, howned⟩, hs.tracks⟩
    intro a hsome
    rw [ha] at hsome
    cases hsome
  | some a =>
    have hplace : r.place ∈ a.inFlight.rows := hs.sent a ha r (List.mem_cons_self ..)
    refine ⟨⟨hapart, ?_, ?_⟩, fun _ => hs.tracked a ha r.place hplace⟩
    · rintro b ⟨⟩ e he
      obtain ⟨he, hne⟩ := Table.mem_erase.1 he
      refine ⟨hne, fun hip => hne ?_⟩
      exact congrArg Prod.fst (place_eq (hs.tidy a ha) he hplace (.inr hip))
    · intro hkind m hm hlt hconcerns
      have hown := howned hkind m hm hlt hconcerns
      refine ⟨hown.1, fun hcur => hown.2 ⟨?_, hcur.2⟩⟩
      rw [ha]
      rfl

/-! ## Cooldowns change -/

/-- The end that an outcome records. -/
def endOf (r : Request) (until_ : Nat) : CooldownEnd := ⟨r.node.id, r.node.ip, until_, none⟩

theorem kept_cooldown {m : CooldownEnd} (h : s.Kept m) (node : DiscoveredNode)
    (until_ failures : Nat) : (s.cooldown node until_ failures).Kept m := by
  obtain ⟨⟨c, hc, hid⟩, u, hu, hip⟩ := h
  constructor
  · simp only [Sampler.cooldown, Table.get?_insert]
    split
    · rename_i heq
      rw [heq, hc]
      exact ⟨_, rfl, hid.trans (le_max_left _ _)⟩
    · exact ⟨c, hc, hid⟩
  · simp only [Sampler.cooldown, Table.get?_insert]
    split
    · rename_i heq
      rw [heq, hu]
      exact ⟨_, rfl, hip.trans (le_max_left _ _)⟩
    · exact ⟨u, hu, hip⟩

theorem kept_endOf (s : Sampler) (r : Request) (until_ failures : Nat) :
    (s.cooldown r.node until_ failures).Kept (endOf r until_) := by
  constructor
  · simp only [Sampler.cooldown, endOf, Table.get?_insert, if_true]
    refine ⟨_, rfl, ?_⟩
    cases s.ids.get? r.node.id with
    | none => exact le_rfl
    | some e => exact le_max_right _ _
  · simp only [Sampler.cooldown, endOf, Table.get?_insert, if_true]
    refine ⟨_, rfl, ?_⟩
    cases s.ips.get? r.node.ip with
    | none => exact le_rfl
    | some e => exact le_max_right _ _

/-- **`cooldown` records an end** of a request that was given back, and takes no new row. -/
theorem Safe.cooldown (hs : s.Safe now out ends) (hapart : s.Apart out r)
    (htracks : s.Tracks r) (until_ failures : Nat) :
    (s.cooldown r.node until_ failures).Safe now out (endOf r until_ :: ends) := by
  refine { hs with tracked := ?_, bounded := ?_, kept := ?_, owned := ?_ }
  · intro a ha e he
    obtain ⟨hid, hip⟩ := hs.tracked a ha e he
    simp only [Sampler.cooldown, Table.get?_insert]
    constructor
    · split
      · rfl
      · exact hid
    · split
      · rfl
      · exact hip
  · intro a ha
    obtain ⟨hid, hip⟩ := htracks (by
      rw [show s.session = some a from ha]
      rfl)
    obtain ⟨x, hx⟩ := Option.isSome_iff_exists.1 hid
    obtain ⟨y, hy⟩ := Option.isSome_iff_exists.1 hip
    have hbound := hs.bounded a ha
    constructor
    · exact (Table.length_insert_some hx).trans_le hbound.1
    · exact (Table.length_insert_some hy).trans_le hbound.2
  · intro m hm hlt
    rcases List.mem_cons.1 hm with rfl | hm
    · exact kept_endOf s r until_ failures
    · exact kept_cooldown (hs.kept m hm hlt) r.node until_ failures
  · intro m hm hlt q hq hkind hconcerns
    rcases List.mem_cons.1 hm with rfl | hm
    · have hne := hapart q hq
      rcases hconcerns with heq | heq
      · exact absurd heq.symm hne.1
      · exact absurd heq.symm hne.2
    · exact hs.owned m hm hlt q hq hkind hconcerns

/-- **`abandon_unsent` lifts ends**: those that remain are about other nodes. -/
theorem Safe.forget (hs : s.Safe now out ends) (hspare : s.Spare now out ends r)
    {ends' : List CooldownEnd} (hsub : ∀ m ∈ ends', m ∈ ends)
    (hother : ∀ m ∈ ends', now < m.until_ → ¬ m.Concerns r.node) :
    (s.forget r).Safe now out ends' := by
  refine { hs with tracked := ?_, bounded := ?_, kept := ?_, owned := ?_ }
  · intro a ha e he
    obtain ⟨hne, hne'⟩ := hspare.landed a ha e he
    simp only [Sampler.forget, Table.get?_erase, if_neg hne, if_neg hne']
    exact hs.tracked a ha e he
  · intro a ha
    have hbound := hs.bounded a ha
    exact ⟨(Table.length_erase_le _ _).trans hbound.1, (Table.length_erase_le _ _).trans hbound.2⟩
  · intro m hm hlt
    have hne := hother m hm hlt
    obtain ⟨hid, hip⟩ := hs.kept m (hsub m hm) hlt
    constructor
    · simp only [Sampler.forget, Table.get?_erase]
      rw [if_neg (fun h => hne (.inl h))]
      exact hid
    · simp only [Sampler.forget, Table.get?_erase]
      rw [if_neg (fun h => hne (.inr h))]
      exact hip
  · exact fun m hm hlt => hs.owned m (hsub m hm) hlt

end Sampler

end BtSniffer
