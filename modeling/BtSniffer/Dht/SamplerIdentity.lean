import BtSniffer.Dht.SamplerFallback

/-!
# A change of identity

The dispatcher cancels all queries, rejects the reservations of the old identity, waits for the
database and clears the session, which goes on under the new identity.

* `Flushing` — the invariant while it waits: as `Safe`, but for what is in flight.
* `Safe.rotateIdentity` — the invariant of the sampler is kept.
-/

set_option autoImplicit false

namespace BtSniffer

open Relational

/-- `Event` of `storage_event`. -/
inductive StorageEvent where
  | reserved (result : Except StorageError CooldownLease)
  | settled (index : Nat) (result : Except StorageError Unit)

namespace Sampler

/-- `storage_event`, if the database has the work that it reports on. -/
def storageEvent (s : Sampler) (event : StorageEvent) (current : Nat) : Option Sampler :=
  match event with
  | .reserved result =>
    (s.durable.bind Durable.reserving).map (fun reservation => s.reserved reservation result current)
  | .settled index result =>
    if s.durable.any (fun d => decide (index < d.settling.length)) then
      some (s.settled index result current)
    else none

/-- `flush_storage`, with the events and their times: it ends when the database has no work left. -/
def flushStorage : List (Nat × StorageEvent) → Sampler → Option Sampler
  | [], s =>
    if s.durable.any (fun d => d.reserving.isSome || !d.settling.isEmpty) then none else some s
  | (current, event) :: rest, s => (s.storageEvent event current).bind (flushStorage rest)

/-- The first part of `prepare_identity_change`: old reservations are rejected. -/
def rejectReservations (s : Sampler) (now : Nat) : Sampler :=
  { s with generation := s.generation + 1 }.dropReady now

/-- The last part of `prepare_identity_change`: the session starts over. -/
def startOver (s : Sampler) (random : NodeId) (now : Nat) : Sampler :=
  { s with
    session := s.session.map (fun session => { session with
      inFlight := .empty
      candidates := .empty
      readyPermit := false
      target := random
      queries := 0
      nextSend := now })
    deadline := s.session.map (fun _ => now) }

/-- `prepare_identity_change`. -/
def prepareIdentityChange (s : Sampler) (events : List (Nat × StorageEvent)) (random : NodeId)
    (now : Nat) : Option (Except StorageError Unit × Sampler) :=
  (flushStorage events (s.rejectReservations now)).map (fun s =>
    match s.status.storageError with
    | some e => (.error e, s)
    | none => (.ok (), s.startOver random now))

/-- `identity_changed`. -/
def identityChanged (s : Sampler) (identity : LocalIdentity) : Sampler :=
  s.mapDurable (fun d => { d with identity := identity })

/-- What `rotate_identity` does to the sampler; `bound` is what the database answers to `bind`. -/
def rotateIdentity (s : Sampler) (events : List (Nat × StorageEvent))
    (bound : Except StorageError LocalIdentity) (random : NodeId) (now current : Nat) :
    Option Sampler :=
  (s.prepareIdentityChange events random now).map (fun result =>
    match result.1, bound with
    | .error e, _ => result.2.markStorageFault e current
    | .ok _, .error e => result.2.markStorageFault e current
    | .ok _, .ok identity => result.2.identityChanged identity)

/-- `accept_permit`. -/
def acceptPermit (s : Sampler) : Sampler :=
  { s with session := s.session.map (fun session => { session with readyPermit := true }) }

/-! ## The invariant while the database is flushed -/

variable {s s' : Sampler} {now : Nat} {ends : List CooldownEnd}

/-- Nothing is in flight. -/
def landAll (s : Sampler) : Sampler :=
  { s with session := s.session.map (fun session => { session with inFlight := .empty }) }

/-- No request is held or ready, and the invariant holds but for what is in flight. -/
structure Flushing (s : Sampler) (now : Nat) (ends : List CooldownEnd) : Prop where
  ready : s.ready? = none
  safe : s.landAll.Safe now [] ends

/-- A session without requests in flight is tidy. -/
theorem tidy_empty {a b : SamplingSession} (t : a.Tidy) (hconfig : b.config = a.config)
    (hcandidates : b.candidates = a.candidates) (hflight : b.inFlight = .empty) : b.Tidy where
  keyed := by
    refine ⟨?_, ?_⟩
    · rw [hcandidates]
      exact t.keyed.key
    · rw [hflight]
      intro e he
      cases he
  parallel := by
    rw [hflight]
    exact Nat.zero_le _
  distinct := by
    rw [hflight]
    exact List.nodup_nil
  room := hconfig ▸ t.room
  capacity := by
    rw [hconfig, hcandidates]
    exact t.capacity

/-- A change of identity rejects what waits. -/
theorem Safe.flushing (hs : s.Safe now [] ends) (hready : s.ready? = none) :
    Flushing { s with generation := s.generation + 1 } now ends := by
  refine ⟨hready, ?_⟩
  have hold : ∀ r, s.reserving? = some r → r.generation ≤ s.generation := by
    intro r hr
    rcases hs.waits r hr with ⟨hgen, -⟩ | ⟨hgen, -⟩
    · exact hgen.le
    · exact hgen.le
  have hnil : ∀ r, r ∉ ([] : List Request) ++ s.ready?.toList := by simp [hready]
  refine { hs with
    tidy := ?_, tracked := ?_, bounded := ?_
    sent := fun b _ r hr => absurd hr (hnil r)
    current := fun r hr => absurd hr (hnil r)
    waits := ?_, idle := fun _ => hready
    kept := fun m hm hlt => ⟨(hs.kept m hm hlt).id, (hs.kept m hm hlt).ip⟩, owned := ?_ }
  · intro b hb
    obtain ⟨a, ha, rfl⟩ := Option.map_eq_some_iff.1 hb
    exact tidy_empty (hs.tidy a ha) rfl rfl rfl
  · intro b hb e he
    obtain ⟨a, ha, rfl⟩ := Option.map_eq_some_iff.1 hb
    cases he
  · intro b hb
    obtain ⟨a, ha, rfl⟩ := Option.map_eq_some_iff.1 hb
    exact hs.bounded a ha
  · intro r hr
    refine .inr ⟨Nat.lt_succ_of_le (hold r hr), rfl, hready, fun b hb => ?_⟩
    obtain ⟨a, ha, rfl⟩ := Option.map_eq_some_iff.1 hb
    rfl
  · intro m hm hlt r hr hkind hconcerns
    refine ⟨(hs.owned m hm hlt r hr hkind hconcerns).1, fun hcur => ?_⟩
    have hreserving : s.reserving? = some r := by
      rcases mem_live.1 hr with hr | hr | hr
      · cases hr
      · exact absurd hr (hready ▸ nofun)
      · exact hr
    have hgen : r.generation = s.generation + 1 := hcur.2
    have hle := hold r hreserving
    omega

theorem landAll_session {a : SamplingSession} (ha : s.session = some a) :
    s.landAll.session = some { a with inFlight := .empty } := by
  unfold landAll
  rw [ha]
  rfl

theorem landAll_idle (h : s.session = none) : s.landAll = s := by
  unfold landAll
  rw [h, Option.map_none, ← h]

theorem Safe.flushing_idle (hs : s.Safe now [] ends) (hnone : s.session = none) :
    Flushing s now ends :=
  ⟨hs.idle hnone, (landAll_idle hnone).symm ▸ hs⟩

theorem rejectReservations_eq (s : Sampler) (t : Nat) : s.rejectReservations t =
    { s.dropReady t with generation := (s.dropReady t).generation + 1 } := by
  unfold rejectReservations dropReady
  cases hready : s.durable.bind Durable.ready with
  | none => simp only
  | some r =>
    simp only
    unfold Sampler.abandonUnsent Sampler.finished mapDurable
    cases s.session with
    | none => cases r.kind <;> cases r.lease <;> rfl
    | some a => cases r.kind <;> cases r.lease <;> rfl

/-- **Old reservations are rejected**, and the request that is ready is given up. -/
theorem Safe.rejectReservations (hs : s.Safe now [] ends) (t : Nat) :
    Flushing (s.rejectReservations t) now ends := by
  obtain ⟨hsafe, hready⟩ := hs.dropReady t
  rw [rejectReservations_eq]
  exact hsafe.flushing hready

/-- Cooldowns of what was in flight are extended, and the session ends. -/
theorem Flushing.halt (h : Flushing s now ends) (a : SamplingSession) (t : Nat) :
    Safe { s.holdInFlight a t with session := none } now [] ends where
  tidy := by
    rintro b ⟨⟩
  tracked := by
    rintro b ⟨⟩
  bounded := by
    rintro b ⟨⟩
  sent := by
    rintro b ⟨⟩
  current := h.safe.current
  waits := by
    intro r hr
    rcases h.safe.waits r hr with ⟨hgen, -⟩ | ⟨hgen, hnil, hnone, -⟩
    · exact .inl ⟨hgen, by rintro b ⟨⟩⟩
    · exact .inr ⟨hgen, hnil, hnone, by rintro b ⟨⟩⟩
  idle := fun _ => h.ready
  ids := h.safe.ids
  ips := h.safe.ips
  kept := by
    intro m hm hlt
    obtain ⟨hid, hip⟩ := h.safe.kept m hm hlt
    have hkept : s.Kept m := ⟨hid, hip⟩
    exact ⟨(kept_hold hkept a t).id, (kept_hold hkept a t).ip⟩
  owned := by
    intro m hm hlt r hr hkind hconcerns
    exact ⟨(h.safe.owned m hm hlt r hr hkind hconcerns).1, fun hcur => by cases hcur.1⟩

/-- **A storage fault ends the session.** -/
theorem Flushing.markStorageFault (h : Flushing s now ends) (error : StorageError) (t : Nat) :
    (s.markStorageFault error t).Safe now [] ends := by
  unfold Sampler.markStorageFault
  refine Safe.frame ?_ (frame_status _ _)
  have hdrop : s.dropReady t = s := by
    unfold dropReady
    have hready : s.durable.bind Durable.ready = none := h.ready
    rw [hready]
  unfold Sampler.stop
  rw [hdrop]
  cases ha : s.session with
  | none =>
    simp only [ha]
    have hs := landAll_idle ha ▸ h.safe
    exact hs.frame (.of_session rfl rfl rfl rfl rfl ha.symm)
  | some a =>
    simp only [ha]
    exact (h.halt a t).frame (.of_session rfl rfl rfl rfl rfl rfl)

theorem Flushing.frame (h : Flushing s now ends) (hf : Frame s.landAll s'.landAll) :
    Flushing s' now ends :=
  ⟨hf.ready.trans h.ready, h.safe.frame hf⟩

theorem Flushing.settled (h : Flushing s now ends) (index : Nat) (result : Except StorageError Unit)
    (t : Nat) : Flushing (s.settled index result t) now ends := by
  have hdone : Flushing (s.mapDurable fun d => { d with settling := d.settling.eraseIdx index }) now
      ends := h.frame (frame_settling s.landAll fun settling => settling.eraseIdx index)
  unfold Sampler.settled
  simp only
  split
  · exact (hdone.markStorageFault _ t).flushing_idle (stop_session _ t)
  · exact hdone

theorem abandonUnsent_session {a : SamplingSession} (ha : s.session = some a) (r : Request) (t : Nat) :
    (s.abandonUnsent r t).session = some { a with
      inFlight := a.inFlight.erase r.node.id
      nextSend := max a.nextSend (t + 1000000000) } := by
  unfold Sampler.abandonUnsent Sampler.finished delaySend
  rw [ha]
  cases r.kind <;> cases r.lease <;> rfl

/-- What is in flight does not matter to a request that is given up. -/
theorem frame_landAll_abandonUnsent (s : Sampler) (r : Request) (t : Nat) :
    Frame (s.landAll.abandonUnsent r t) (s.abandonUnsent r t).landAll := by
  cases ha : s.session with
  | none =>
    have hnone : (s.abandonUnsent r t).session = none := by
      unfold Sampler.abandonUnsent Sampler.finished delaySend
      rw [ha]
      cases r.kind <;> cases r.lease <;> simp [ha, forget, pushSettlement, mapDurable]
    rw [landAll_idle ha, landAll_idle hnone]
    exact .refl _
  | some a =>
    have hland := landAll_session ha
    have hb : (s.abandonUnsent r t).landAll.session = some { a with
        inFlight := .empty, nextSend := max a.nextSend (t + 1000000000) } := by
      unfold landAll
      rw [abandonUnsent_session ha]
      rfl
    refine ⟨?_, ?_, ?_, ?_, ?_, .inr ⟨_, _, abandonUnsent_session hland r t, hb, ⟨rfl, rfl⟩,
      fun tidy => tidy_empty tidy rfl rfl rfl⟩⟩
    all_goals
      unfold Sampler.abandonUnsent Sampler.finished delaySend landAll
      rw [ha]
      cases r.kind <;> cases r.lease <;> rfl

theorem Flushing.unreserve (h : Flushing s now ends) :
    Flushing (s.mapDurable fun d => { d with reserving := none }) now ends :=
  ⟨(ready?_unreserve s).trans h.ready, h.safe.unreserve⟩

/-- A request that waits for its lease is not of the session that goes on. -/
theorem Flushing.stale (h : Flushing s now ends) {r : Request} (hr : s.reserving? = some r) :
    ¬ s.Current r := by
  rintro ⟨hsome, hgen⟩
  obtain ⟨a, ha⟩ := Option.isSome_iff_exists.1 hsome
  have hland := landAll_session ha
  rcases h.safe.waits r hr with ⟨-, hplace⟩ | ⟨hlt, -⟩
  · cases hplace _ hland
  · exact absurd hgen (ne_of_lt hlt)

/-- The answer for a request of another session. -/
theorem reserved_stale {reservation : Reservation}
    (h : ¬ (s.session.isSome ∧ reservation.request.generation = s.generation))
    (lease : CooldownLease) (t : Nat) : s.reserved reservation (.ok lease) t =
      (s.mapDurable fun d => { d with reserving := none }).abandonUnsent
        { reservation.request with lease := some lease } t :=
  if_neg h

/-- **A reservation that is answered is stale**, and its request is given up. -/
theorem Flushing.reserved (h : Flushing s now ends) {reservation : Reservation}
    (hreserving : s.durable.bind Durable.reserving = some reservation)
    (result : Except StorageError CooldownLease) (t : Nat) :
    Flushing (s.reserved reservation result t) now (s.reservedEnds reservation result ends) := by
  obtain ⟨d, hd, hd'⟩ := Option.bind_eq_some_iff.1 hreserving
  cases result with
  | error e => exact (h.unreserve.markStorageFault e t).flushing_idle (stop_session _ t)
  | ok lease =>
    have hr : s.reserving? = some reservation.request := by
      unfold reserving?
      rw [hd]
      simp [hd']
    have hstale : ¬ (s.session.isSome ∧ reservation.request.generation = s.generation) :=
      h.stale hr
    have hland : ¬ (s.landAll.session.isSome ∧
        reservation.request.generation = s.landAll.generation) := by
      unfold landAll
      simpa using hstale
    have hsafe := h.safe.reserved hd hd' (.ok lease) t
    have hends : s.reservedEnds reservation (.ok lease) ends = lift reservation.request ends :=
      if_neg hstale
    have hends' : s.landAll.reservedEnds reservation (.ok lease) ends =
      lift reservation.request ends := if_neg hland
    rw [reserved_stale hland, hends'] at hsafe
    rw [reserved_stale hstale, hends]
    have hframe := frame_landAll_abandonUnsent (s.mapDurable fun d => { d with reserving := none })
      { reservation.request with lease := some lease } t
    exact ⟨(abandonUnsent_ready _ _ t).trans h.unreserve.ready, hsafe.frame hframe⟩

/-- The ends that are left after an event. -/
def eventEnds (s : Sampler) (event : StorageEvent) (ends : List CooldownEnd) : List CooldownEnd :=
  match event with
  | .reserved result =>
    (s.durable.bind Durable.reserving).elim ends
      (fun reservation => s.reservedEnds reservation result ends)
  | .settled _ _ => ends

/-- The ends that are left when the database was flushed. -/
def flushEnds : List (Nat × StorageEvent) → Sampler → List CooldownEnd → List CooldownEnd
  | [], _, ends => ends
  | (current, event) :: rest, s, ends =>
    (s.storageEvent event current).elim ends (fun s' => flushEnds rest s' (s.eventEnds event ends))

theorem Flushing.event (h : Flushing s now ends) {event : StorageEvent} {current : Nat}
    (hevent : s.storageEvent event current = some s') :
    Flushing s' now (s.eventEnds event ends) := by
  cases event with
  | reserved result =>
    obtain ⟨reservation, hreserving, rfl⟩ := Option.map_eq_some_iff.1 hevent
    unfold eventEnds
    simp only [hreserving, Option.elim_some]
    exact h.reserved hreserving result current
  | settled index result =>
    obtain ⟨-, heq⟩ := Option.ite_none_right_eq_some.1 hevent
    cases heq
    exact h.settled index result current

theorem Flushing.flushStorage : ∀ (events : List (Nat × StorageEvent)) {s s' : Sampler}
    {ends : List CooldownEnd}, Flushing s now ends → flushStorage events s = some s' →
    Flushing s' now (flushEnds events s ends)
  | [], s, s', ends, h, hflush => by
    unfold Sampler.flushStorage at hflush
    split at hflush
    · cases hflush
    · cases hflush
      exact h
  | (current, event) :: rest, s, s', ends, h, hflush => by
    obtain ⟨s₁, hevent, hrest⟩ := Option.bind_eq_some_iff.1 hflush
    unfold flushEnds
    rw [hevent, Option.elim_some]
    exact (h.event hevent).flushStorage rest hrest

theorem startOver_session {a : SamplingSession} (ha : s.session = some a) (random : NodeId) (t : Nat) :
    (s.startOver random t).session = some { a with
      inFlight := .empty, candidates := .empty, readyPermit := false, target := random
      queries := 0, nextSend := t } := by
  unfold startOver
  rw [ha]
  rfl

/-- The session that starts over has no candidates. -/
theorem Flushing.startOver (h : Flushing s now ends) (random : NodeId) (t : Nat) :
    (s.startOver random t).Safe now [] ends := by
  cases ha : s.session with
  | none =>
    have hs := landAll_idle ha ▸ h.safe
    refine hs.frame (.of_session rfl rfl rfl rfl rfl ?_)
    unfold Sampler.startOver
    rw [ha]
    rfl
  | some a =>
    have hland := landAll_session ha
    refine h.safe.frame ⟨rfl, rfl, rfl, rfl, rfl,
      .inr ⟨_, _, hland, startOver_session ha random t, ⟨rfl, rfl⟩, ?_⟩⟩
    intro tidy
    refine ⟨⟨?_, ?_⟩, tidy.parallel, tidy.distinct, tidy.room, Nat.zero_le _⟩
    · intro row hrow
      cases hrow
    · intro e he
      cases he

theorem frame_identityChanged (s : Sampler) (identity : LocalIdentity) :
    Frame s (s.identityChanged identity) := by
  refine .of_session rfl rfl ?_ ?_ rfl rfl
  · unfold ready? identityChanged mapDurable
    cases s.durable <;> rfl
  · unfold reserving? identityChanged mapDurable
    cases s.durable <;> rfl

/-- **A change of identity keeps the invariant** when no request is held. -/
theorem Safe.rotateIdentity (hs : s.Safe now [] ends) {events : List (Nat × StorageEvent)}
    {bound : Except StorageError LocalIdentity} {random : NodeId} {t current : Nat}
    (h : s.rotateIdentity events bound random t current = some s') :
    s'.Safe now [] (flushEnds events (s.rejectReservations t) ends) := by
  obtain ⟨result, hresult, rfl⟩ := Option.map_eq_some_iff.1 h
  obtain ⟨s₁, hflush, rfl⟩ := Option.map_eq_some_iff.1 hresult
  have hflushing := (hs.rejectReservations t).flushStorage events hflush
  cases s₁.status.storageError with
  | some e => exact hflushing.markStorageFault e current
  | none =>
    have hsafe := hflushing.startOver random t
    cases bound with
    | error e => exact hsafe.markStorageFault e current
    | ok identity => exact hsafe.frame (frame_identityChanged _ identity)

theorem frame_acceptPermit (s : Sampler) : Frame s s.acceptPermit := by
  unfold acceptPermit
  cases ha : s.session with
  | none => exact .of_session rfl rfl rfl rfl rfl ha.symm
  | some a =>
    refine .of_renews ha ⟨rfl, rfl⟩ fun tidy => ?_
    exact ⟨⟨tidy.keyed.key, tidy.keyed.kept⟩, tidy.parallel, tidy.distinct, tidy.room, tidy.capacity⟩

/-! ## Candidates -/

theorem dropReady_mild (s : Sampler) (t : Nat) : Mild s (s.dropReady t) := by
  unfold dropReady
  split
  · exact .refl s
  · have hclear : Mild s (s.mapDurable fun d => { d with ready := none }) := .of_session rfl
    exact hclear.trans (abandonUnsent_mild _ _ t)

theorem storageEvent_mild {event : StorageEvent} {current : Nat}
    (hevent : s.storageEvent event current = some s') : Mild s s' := by
  cases event with
  | reserved result =>
    obtain ⟨reservation, -, rfl⟩ := Option.map_eq_some_iff.1 hevent
    exact reserved_mild s reservation result current
  | settled index result =>
    obtain ⟨-, heq⟩ := Option.ite_none_right_eq_some.1 hevent
    cases heq
    exact settled_mild s index result current

theorem flushStorage_mild : ∀ (events : List (Nat × StorageEvent)) {s s' : Sampler},
    flushStorage events s = some s' → Mild s s'
  | [], s, s', hflush => by
    unfold flushStorage at hflush
    split at hflush
    · cases hflush
    · cases hflush
      exact .refl s
  | (current, event) :: rest, s, s', hflush => by
    obtain ⟨s₁, hevent, hrest⟩ := Option.bind_eq_some_iff.1 hflush
    exact (storageEvent_mild hevent).trans (flushStorage_mild rest hrest)

theorem startOver_mild (s : Sampler) (random : NodeId) (t : Nat) : Mild s (s.startOver random t) := by
  cases ha : s.session with
  | none =>
    refine .of_none ?_
    unfold startOver
    rw [ha]
    rfl
  | some a =>
    refine .of_some ha (startOver_session ha random t) ?_
      ⟨rfl, Nat.zero_le _, fun row hrow => by cases hrow⟩
    intro id c hc
    cases hc

/-- A change of identity leaves no candidate. -/
theorem rotateIdentity_mild {events : List (Nat × StorageEvent)}
    {bound : Except StorageError LocalIdentity} {random : NodeId} {t current : Nat}
    (h : s.rotateIdentity events bound random t current = some s') : Mild s s' := by
  obtain ⟨result, hresult, rfl⟩ := Option.map_eq_some_iff.1 h
  obtain ⟨s₁, hflush, rfl⟩ := Option.map_eq_some_iff.1 hresult
  have hgeneration : Mild s { s with generation := s.generation + 1 } := .of_session rfl
  have hmild := (hgeneration.trans (dropReady_mild _ t)).trans (flushStorage_mild events hflush)
  cases s₁.status.storageError with
  | some e => exact hmild.trans (markStorageFault_mild _ e current)
  | none =>
    have hover := hmild.trans (startOver_mild s₁ random t)
    cases bound with
    | error e => exact hover.trans (markStorageFault_mild _ e current)
    | ok identity => exact hover.trans (.of_session rfl)

theorem acceptPermit_mild (s : Sampler) : Mild s s.acceptPermit := by
  unfold acceptPermit
  cases ha : s.session with
  | none => exact .of_none rfl
  | some a => exact .of_candidates ha rfl rfl rfl rfl

end Sampler

end BtSniffer
