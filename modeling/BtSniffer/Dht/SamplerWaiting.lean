import BtSniffer.Dht.SamplerOutcome

/-!
# Requests that wait in the sampler

* `Safe.reserveRequest` — the request is handed back, or it waits for its lease.
* `Safe.takeReserved` — the request that is ready is handed out.
* `Safe.reserved` — with its lease the request is ready, or it is abandoned: its session is over.
-/

set_option autoImplicit false

namespace BtSniffer

open Relational

namespace Sampler

variable {s s' : Sampler} {now : Nat} {out : List Request} {ends : List CooldownEnd} {r : Request}

/-! ## A request waits -/

/-- A request that is out waits for its lease. -/
theorem Safe.enqueue (hs : s.Safe now (r :: out) ends) (hready : s'.ready? = s.ready?)
    (hreserving : s'.reserving? = some r) (hids : s'.ids = s.ids) (hips : s'.ips = s.ips)
    (hsession : s'.session = s.session) (hgeneration : s'.generation = s.generation) :
    s'.Safe now out ends := by
  have hlive : (r :: (out ++ s.ready?.toList)).Perm (s'.live out) := by
    unfold Sampler.live
    rw [hready, hreserving, ← List.append_assoc]
    exact (List.perm_append_singleton r _).symm
  have hsub : (r :: (out ++ s.ready?.toList)).Sublist (s.live (r :: out)) := by
    unfold Sampler.live
    rw [← List.append_assoc]
    exact List.sublist_append_left _ _
  have hmem : ∀ q ∈ out ++ s.ready?.toList, q ∈ r :: out ++ s.ready?.toList :=
    fun q hq => List.mem_cons_of_mem r hq
  refine ⟨?_, ?_, ?_, ?_, ?_, ?_, ?_, ?_, ?_, ?_, ?_⟩
  · rw [hsession]
    exact hs.tidy
  · rw [hsession, hids, hips]
    exact hs.tracked
  · rw [hsession, hids, hips]
    exact hs.bounded
  · rw [hsession, hready]
    exact fun a ha q hq => hs.sent a ha q (hmem q hq)
  · rw [hready, hgeneration]
    exact fun q hq => hs.current q (hmem q hq)
  · intro q hq
    rw [hreserving] at hq
    cases hq
    refine .inl ⟨?_, ?_⟩
    · rw [hgeneration]
      exact hs.current r (List.mem_cons_self ..)
    · rw [hsession]
      exact fun a ha => hs.sent a ha r (List.mem_cons_self ..)
  · rw [hsession, hready]
    exact hs.idle
  · exact (hlive.map _).nodup_iff.1 ((hsub.map _).nodup hs.ids)
  · exact (hlive.map _).nodup_iff.1 ((hsub.map _).nodup hs.ips)
  · intro m hm hlt
    obtain ⟨hid, hip⟩ := hs.kept m hm hlt
    exact ⟨by rw [hids]; exact hid, by rw [hips]; exact hip⟩
  · intro m hm hlt q hq hkind hconcerns
    have hown := hs.owned m hm hlt q (hsub.subset (hlive.mem_iff.2 hq)) hkind hconcerns
    unfold Current
    rw [hsession, hgeneration]
    exact hown

/-- **`reserve_request` keeps the request, or it waits in the sampler, or it is dropped.** -/
theorem Safe.reserveRequest (hs : s.Safe now (r :: out) ends) (t current : Nat) :
    (s.reserveRequest r t current).1.Safe now
      ((s.reserveRequest r t current).2.toList ++ out) ends := by
  unfold Sampler.reserveRequest
  cases hd : s.durable with
  | none => exact hs
  | some d =>
    simp only
    split
    · exact hs
    · cases ha : s.session with
      | none => exact hs.drop
      | some a =>
        simp only
        split
        · exact hs.drop.markStorageFault _ current
        · split
          · refine hs.enqueue ?_ rfl rfl rfl ha.symm rfl
            unfold ready?
            rw [hd]
            rfl
          · exact hs.drop.markStorageFault _ current

/-- **`take_reserved` hands out the request that is ready.** -/
theorem Safe.takeReserved (hs : s.Safe now out ends) (capacity t : Nat) :
    (s.takeReserved capacity t).1.Safe now ((s.takeReserved capacity t).2.toList ++ out) ends := by
  unfold Sampler.takeReserved
  cases hd : s.durable with
  | none => exact hs
  | some d =>
    cases ha : s.session with
    | none => exact hs
    | some a =>
      simp only
      split
      · exact hs
      · rename_i hbusy
        split
        · exact hs.frame (.of_session rfl rfl (by unfold ready?; rw [hd]) (by
            unfold reserving?
            rw [hd]) rfl ha.symm)
        · cases hready : d.ready with
          | none => exact absurd (.inl hready) hbusy
          | some r =>
            have hr : s.ready? = some r := by
              unfold ready?
              rw [hd]
              exact hready
            have hclear : s.mapDurable (fun d => { d with ready := none }) =
                { s with durable := some { d with ready := none } } := by
              unfold mapDurable
              rw [hd]
              rfl
            have hsafe := (hs.takeReady hr).1
            rw [hclear] at hsafe
            refine hsafe.frame ⟨rfl, rfl, rfl, rfl, rfl, .inr ⟨a, _, ha, rfl, ⟨rfl, rfl⟩, ?_⟩⟩
            exact fun t => ⟨⟨t.keyed.key, t.keyed.kept⟩, t.parallel, t.distinct, t.room, t.capacity⟩

/-! ## The database answers -/

@[simp] theorem ready?_unreserve (s : Sampler) :
    (s.mapDurable (fun d => { d with reserving := none })).ready? = s.ready? := by
  unfold ready? mapDurable
  cases s.durable <;> rfl

@[simp] theorem reserving?_unreserve (s : Sampler) :
    (s.mapDurable (fun d => { d with reserving := none })).reserving? = none := by
  unfold reserving? mapDurable
  cases s.durable <;> rfl

/-- A request no longer waits for its lease. -/
theorem Safe.unreserve (hs : s.Safe now out ends) :
    (s.mapDurable (fun d => { d with reserving := none })).Safe now out ends := by
  have hsub : ((s.mapDurable (fun d => { d with reserving := none })).live out).Sublist
      (s.live out) := by
    simp only [Sampler.live, ready?_unreserve, reserving?_unreserve]
    exact List.Sublist.append_left (by simp) _
  refine { hs with
    sent := ?_, current := ?_, waits := ?_, idle := ?_
    ids := (hsub.map _).nodup hs.ids
    ips := (hsub.map _).nodup hs.ips
    kept := fun m hm hlt => ⟨(hs.kept m hm hlt).id, (hs.kept m hm hlt).ip⟩
    owned := fun m hm hlt q hq => hs.owned m hm hlt q (hsub.subset hq) }
  · rw [ready?_unreserve]
    exact hs.sent
  · rw [ready?_unreserve]
    exact hs.current
  · intro q hq
    rw [reserving?_unreserve] at hq
    cases hq
  · rw [ready?_unreserve]
    exact hs.idle

/-- A request that waits in its session is taken out of the sampler. -/
theorem Safe.takeWaiting (hs : s.Safe now out ends) (hr : s.reserving? = some r)
    (hgen : r.generation = s.generation) :
    (s.mapDurable (fun d => { d with reserving := none })).Safe now (r :: out) ends := by
  have hlive : (s.live out).Perm
      ((s.mapDurable (fun d => { d with reserving := none })).live (r :: out)) := by
    simp only [Sampler.live, ready?_unreserve, reserving?_unreserve, hr]
    simpa using List.perm_append_singleton r (out ++ s.ready?.toList)
  have hplace : ∀ a, s.session = some a → r.place ∈ a.inFlight.rows := by
    rcases hs.waits r hr with ⟨-, hplace⟩ | ⟨hlt, -⟩
    · exact hplace
    · omega
  have hrest := hs.unreserve
  refine { hrest with
    sent := ?_, current := ?_, waits := ?_
    ids := (hlive.map _).nodup_iff.1 hs.ids
    ips := (hlive.map _).nodup_iff.1 hs.ips
    owned := fun m hm hlt q hq => hs.owned m hm hlt q (hlive.mem_iff.2 hq) }
  · intro a ha q hq
    rcases List.mem_cons.1 hq with rfl | hq
    · exact hplace a ha
    · exact hrest.sent a ha q hq
  · intro q hq
    rcases List.mem_cons.1 hq with rfl | hq
    · exact hgen
    · exact hrest.current q hq
  · intro q hq
    rw [reserving?_unreserve] at hq
    cases hq

/-- A lease does not matter to the invariant. -/
theorem Safe.leased (hs : s.Safe now (r :: out) ends) (lease : Option CooldownLease) :
    s.Safe now ({ r with lease := lease } :: out) ends := by
  refine { hs with sent := ?_, current := ?_, waits := ?_, owned := ?_ }
  · intro a ha q hq
    rcases List.mem_cons.1 hq with rfl | hq
    · exact hs.sent a ha r (List.mem_cons_self ..)
    · exact hs.sent a ha q (List.mem_cons_of_mem r hq)
  · intro q hq
    rcases List.mem_cons.1 hq with rfl | hq
    · exact hs.current r (List.mem_cons_self ..)
    · exact hs.current q (List.mem_cons_of_mem r hq)
  · intro q hq
    rcases hs.waits q hq with hw | ⟨-, hnil, -⟩
    · exact .inl hw
    · cases hnil
  · intro m hm hlt q hq hkind hconcerns
    rcases List.mem_cons.1 hq with rfl | hq
    · exact hs.owned m hm hlt r (List.mem_cons_self ..) hkind hconcerns
    · exact hs.owned m hm hlt q (List.mem_cons_of_mem r hq) hkind hconcerns

/-- A request that is out becomes ready; one that was ready is dropped. -/
theorem Safe.setReady (hs : s.Safe now (r :: out) ends) (hsession : s.session.isSome)
    (hdurable : s.durable.isSome) (hreserving : s.reserving? = none) :
    (s.mapDurable (fun d => { d with ready := some r })).Safe now out ends := by
  obtain ⟨d, hd⟩ := Option.isSome_iff_exists.1 hdurable
  have hready : (s.mapDurable (fun d => { d with ready := some r })).ready? = some r := by
    unfold ready? mapDurable
    rw [hd]
    rfl
  have hreserving' : (s.mapDurable (fun d => { d with ready := some r })).reserving? = none := by
    rw [← hreserving]
    unfold reserving? mapDurable
    rw [hd]
    rfl
  have hperm : (r :: out).Perm ((s.mapDurable (fun d => { d with ready := some r })).live out) := by
    simp only [Sampler.live, hready, hreserving']
    simpa using (List.perm_append_singleton r out).symm
  have hsub : (r :: out).Sublist (s.live (r :: out)) := List.sublist_append_left _ _
  have hmem : ∀ q ∈ out ++ (some r).toList, q ∈ r :: out ++ s.ready?.toList := by
    intro q hq
    rcases List.mem_append.1 hq with hq | hq
    · exact List.mem_cons_of_mem r (List.mem_append_left _ hq)
    · simp only [Option.toList_some, List.mem_singleton] at hq
      rw [hq]
      exact List.mem_cons_self ..
  refine { hs with
    sent := ?_, current := ?_, waits := ?_, idle := ?_
    ids := (hperm.map _).nodup_iff.1 ((hsub.map _).nodup hs.ids)
    ips := (hperm.map _).nodup_iff.1 ((hsub.map _).nodup hs.ips)
    kept := fun m hm hlt => ⟨(hs.kept m hm hlt).id, (hs.kept m hm hlt).ip⟩
    owned := fun m hm hlt q hq => hs.owned m hm hlt q (hsub.subset (hperm.mem_iff.2 hq)) }
  · rw [hready]
    exact fun a ha q hq => hs.sent a ha q (hmem q hq)
  · rw [hready]
    exact fun q hq => hs.current q (hmem q hq)
  · rw [hreserving']
    rintro q ⟨⟩
  · intro hnone
    rw [show s.session = none from hnone] at hsession
    cases hsession

/-- A request whose session is over is abandoned when its lease comes. -/
theorem Safe.abandonStale (hs : s.Safe now out ends) (hr : s.reserving? = some r)
    (hgen : r.generation < s.generation) (hnil : out = []) (hready : s.ready? = none)
    (hempty : ∀ a, s.session = some a → a.inFlight.rows = []) (lease : CooldownLease) (t : Nat) :
    ((s.mapDurable (fun d => { d with reserving := none })).abandonUnsent
      { r with lease := some lease } t).Safe now out (lift r ends) := by
  subst hnil
  have hrest := hs.unreserve
  have hlive : (s.mapDurable (fun d => { d with reserving := none })).live [] = [] := by
    simp [Sampler.live, hready]
  have hapart : (s.mapDurable (fun d => { d with reserving := none })).Apart []
      { r with lease := some lease } := by
    unfold Apart
    rw [hlive]
    rintro q ⟨⟩
  have hspare : ((s.mapDurable (fun d => { d with reserving := none })).finished
      { r with lease := some lease }).Spare now [] ends { r with lease := some lease } := by
    refine ⟨?_, ?_, ?_⟩
    · have hsame := finished_durable (s.mapDurable (fun d => { d with reserving := none }))
        { r with lease := some lease }
      unfold Apart Sampler.live ready? reserving? at hapart ⊢
      rw [hsame]
      exact hapart
    · intro b hb e he
      rcases finished_inFlight (s.mapDurable (fun d => { d with reserving := none }))
        { r with lease := some lease } hb with ⟨a, ha, hsub⟩
      have hmem := hsub he
      rw [hempty a ha] at hmem
      cases hmem
    · intro hkind m hm hlt hconcerns
      have hown := hs.owned m hm hlt r (mem_live.2 (.inr (.inr hr))) hkind hconcerns
      refine ⟨hown.1, fun hcur => ?_⟩
      have heq : r.generation = s.generation := hcur.2.trans (finished_generation _ _)
      omega
  refine Safe.unsent (hrest.finish hapart) hspare (fun m hm => (mem_lift.1 hm).1) ?_ t
  intro hkind m hm hlt hconcerns
  obtain ⟨hm, hne⟩ := mem_lift.1 hm
  exact hne (hspare.owned hkind m hm hlt hconcerns).1

/-- The ends that are left when the database answers a reservation. -/
def reservedEnds (s : Sampler) (reservation : Reservation)
    (result : Except StorageError CooldownLease) (ends : List CooldownEnd) : List CooldownEnd :=
  match result with
  | .error _ => ends
  | .ok _ =>
    if s.session.isSome ∧ reservation.request.generation = s.generation then ends
    else lift reservation.request ends

/-- **The request gets its lease and is ready, or its session is over and it is abandoned.** -/
theorem Safe.reserved (hs : s.Safe now out ends) {d : Durable} {reservation : Reservation}
    (hd : s.durable = some d) (hreserving : d.reserving = some reservation)
    (result : Except StorageError CooldownLease) (t : Nat) :
    (s.reserved reservation result t).Safe now out (s.reservedEnds reservation result ends) := by
  have hr : s.reserving? = some reservation.request := by
    unfold reserving?
    rw [hd]
    simp [hreserving]
  unfold Sampler.reserved reservedEnds
  cases result with
  | error e => exact hs.unreserve.markStorageFault e t
  | ok lease =>
    have hsession : (s.mapDurable (fun d => { d with reserving := none })).session = s.session := rfl
    have hgeneration : (s.mapDurable (fun d => { d with reserving := none })).generation =
      s.generation := rfl
    simp only [hsession, hgeneration]
    split
    · rename_i hcur
      refine ((hs.takeWaiting hr hcur.2).leased (some lease)).setReady hcur.1 ?_ (by simp)
      unfold mapDurable
      rw [hd]
      rfl
    · rename_i hstale
      rcases hs.waits _ hr with ⟨hgen, -⟩ | ⟨hgen, hnil, hready, hempty⟩
      · exact ((hs.takeWaiting hr hgen).leased (some lease)).abandonUnsent t
      · exact hs.abandonStale hr hgen hnil hready hempty lease t

theorem Safe.settled (hs : s.Safe now out ends) (index : Nat) (result : Except StorageError Unit)
    (t : Nat) : (s.settled index result t).Safe now out ends := by
  unfold Sampler.settled
  have hsafe := hs.frame (frame_settling s (fun settling => settling.eraseIdx index))
  cases result with
  | error e => exact hsafe.markStorageFault e t
  | ok u => exact hsafe

end Sampler

end BtSniffer
