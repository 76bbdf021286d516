import BtSniffer.Collection.TcpLimitsInv

/-!
# Every step keeps the invariant of the TCP permits

* `Inv.request`, `Inv.cancelWaiting`, `Inv.check`, `Inv.release` — one step each.
* `Inv.loose`, `Loose.addPermit` — a permit is given up, and comes back to the semaphore.
* `Inv.step` — all steps.
-/

set_option autoImplicit false

namespace BtSniffer.TcpLimits

open Relational

variable {s s' : TcpState} {t u : Ticket} {i j : Nat}

/-! ## The semaphore is asked -/

theorem at_setSemaphore {n m : Nat} {value : Semaphore} {P : Phase → Prop} :
    At (s.setSemaphore n value) m P j ↔ At s m P j := Iff.rfl

theorem get?_setSemaphore {n : Nat} {value : Semaphore} :
    (s.setSemaphore n value).tickets.get? i = s.tickets.get? i := rfl

theorem semaphores_other {n m : Nat} {value : Semaphore} (h : m ≠ n) :
    (s.setSemaphore n value).semaphores m = s.semaphores m :=
  Function.update_of_ne h _ _

@[simp] theorem semaphores_same {n : Nat} {value : Semaphore} :
    (s.setSemaphore n value).semaphores n = value := by
  simp

/-- The number of free permits changes. -/
theorem Queues.setPermits (h : Queues s) {n : Nat} {value : Semaphore}
    (hq : value.queue = (s.semaphores n).queue) (hidle : value.queue ≠ [] → value.permits = 0) :
    Queues (s.setSemaphore n value) := by
  refine ⟨fun m j => ?_, fun m => ?_, fun m hne => ?_⟩
  · unfold Waiter
    rw [at_setSemaphore]
    by_cases hm : m = n
    · subst hm
      rw [semaphores_same, hq]
      exact h.queued m j
    · rw [semaphores_other hm]
      exact h.queued m j
  · by_cases hm : m = n
    · subst hm
      rw [semaphores_same, hq]
      exact h.nodup m
    · rw [semaphores_other hm]
      exact h.nodup m
  · by_cases hm : m = n
    · subst hm
      rw [semaphores_same] at hne ⊢
      exact hidle hne
    · rw [semaphores_other hm] at hne ⊢
      exact h.idle m hne

/-- A queue changes with the task that joins or leaves it. -/
theorem Queues.setQueue (h : Queues s) (ht : s.tickets.get? i = some t) {phase : Phase}
    {queue : List Nat}
    (hq : ∀ j, j ∈ queue ↔ (j = i ∧ phase = .waiting) ∨
      (j ≠ i ∧ j ∈ (s.semaphores t.semaphore).queue))
    (hnodup : queue.Nodup)
    (hidle : queue ≠ [] → (s.semaphores t.semaphore).permits = 0) :
    Queues ((s.setSemaphore t.semaphore
      { (s.semaphores t.semaphore) with queue := queue }).setPhase i phase) := by
  refine ⟨fun m j => ?_, fun m => ?_, fun m hne => ?_⟩
  · unfold Waiter
    rw [semaphores_setPhase]
    by_cases hm : m = t.semaphore
    · subst hm
      rw [at_setPhase (get?_setSemaphore.trans ht), at_setSemaphore, semaphores_same, hq, h.queued]
      simp [Waiter]
    · rw [at_setPhase_other (get?_setSemaphore.trans ht) hm, at_setSemaphore, semaphores_other hm]
      exact h.queued m j
  · by_cases hm : m = t.semaphore
    · subst hm
      simpa using hnodup
    · rw [semaphores_setPhase, semaphores_other hm]
      exact h.nodup m
  · rw [semaphores_setPhase] at hne ⊢
    by_cases hm : m = t.semaphore
    · subst hm
      rw [semaphores_same] at hne ⊢
      exact hidle hne
    · rw [semaphores_other hm] at hne ⊢
      exact h.idle m hne

theorem not_queued (h : Queues s) (ht : s.tickets.get? i = some t) (hp : t.phase ≠ .waiting)
    (m : Nat) : i ∉ (s.semaphores m).queue := by
  rw [h.queued]
  rintro ⟨u, hu, -, hwait⟩
  rw [ht] at hu
  cases hu
  exact hp hwait

theorem OnePermit.setQueue {m n : Nat} {value : Semaphore} (h : OnePermit s m)
    (hp : value.permits = (s.semaphores n).permits) : OnePermit (s.setSemaphore n value) m := by
  refine h.congr ?_ (fun j => Iff.rfl)
  by_cases hm : m = n
  · subst hm
    rw [semaphores_same, hp]
  · rw [semaphores_other hm]

theorem Inv.request (h : Inv s) (ht : s.tickets.get? i = some t) (hp : t.phase = .registered) :
    Inv (s.request t) := by
  have hi := task_of_get ht
  have hmoves : ∀ value phase, Moves s ((s.setSemaphore t.semaphore value).setPhase i phase) :=
    fun value phase => moves_setPhase (s := s.setSemaphore t.semaphore value) ht (by simp [hp])
  have hone := h.permit t.semaphore (h.placed.bound i t ht)
  unfold TcpState.request
  simp only [hi]
  split
  · rename_i hfree
    obtain ⟨hpermits, hnone⟩ := hone.resolve_right (fun hr => by omega)
    refine ⟨h.placed.of_moves (hmoves _ _) rfl rfl, ?_, ?_⟩
    · refine Queues.setPhase ?_ (get?_setSemaphore.trans ht) (by simp [hp]) (by simp)
      refine h.queues.setPermits rfl (fun hne => ?_)
      have := h.queues.idle _ hne
      omega
    · intro m hm
      by_cases hmt : m = t.semaphore
      · subst hmt
        refine .inr ⟨?_, i, ?_, ?_⟩
        · rw [semaphores_setPhase, semaphores_same]
          simp only [hpermits]
        · exact (at_setPhase (get?_setSemaphore.trans ht)).2 (.inl ⟨rfl, rfl, rfl⟩)
        · intro j hj
          rcases (at_setPhase (get?_setSemaphore.trans ht)).1 hj with ⟨rfl, -, -⟩ | ⟨-, hj⟩
          · rfl
          · exact absurd hj (hnone j)
      · refine (h.permit m hm).congr ?_
          (fun j => at_setPhase_other (get?_setSemaphore.trans ht) hmt)
        rw [semaphores_setPhase, semaphores_other hmt]
  · rename_i hbusy
    have hout := not_queued h.queues ht (by simp [hp])
    refine ⟨h.placed.of_moves (hmoves _ _) rfl rfl, ?_, fun m hm => ?_⟩
    · refine h.queues.setQueue ht (fun j => ?_) ?_ (fun _ => by omega)
      · rw [List.mem_append, List.mem_singleton]
        constructor
        · rintro (hj | rfl)
          · refine .inr ⟨?_, hj⟩
            rintro rfl
            exact hout _ hj
          · exact .inl ⟨rfl, rfl⟩
        · rintro (⟨rfl, -⟩ | ⟨-, hj⟩)
          · exact .inr rfl
          · exact .inl hj
      · exact List.nodup_append.2 ⟨h.queues.nodup _, List.nodup_singleton i, fun a ha b hb hab => by
          rw [List.mem_singleton] at hb
          exact hout _ (hb ▸ hab ▸ ha)⟩
    · refine OnePermit.setPhase (OnePermit.setQueue (h.permit m hm) ?_) (get?_setSemaphore.trans ht) ?_
      · rfl
      · rw [hp]
        rfl

/-! ## A permit comes back -/

/-- The permit of `n` is in no place, the others are as they should be. -/
structure Loose (s : TcpState) (n : Nat) : Prop where
  placed : Placed s
  queues : Queues s
  transit : InTransit s n
  permit : ∀ m, m < s.created → m ≠ n → OnePermit s m

/-- A permit that comes back goes to the first waiter, or is free. -/
theorem Loose.addPermit {n : Nat} (h : Loose s n) : Inv (s.addPermit n) := by
  unfold TcpState.addPermit
  simp only
  split
  · rename_i hempty
    refine ⟨h.placed.of_moves (Moves.refl s) rfl rfl, ?_, fun m hm => ?_⟩
    · exact h.queues.setPermits rfl (fun hne => absurd hempty hne)
    · by_cases hmn : m = n
      · subst hmn
        refine .inl ⟨?_, h.transit.2⟩
        rw [semaphores_same, h.transit.1]
      · refine (h.permit m hm hmn).congr ?_ (fun j => Iff.rfl)
        rw [semaphores_other hmn]
  · rename_i next rest hqueue
    obtain ⟨t, ht, rfl, hwait⟩ := (h.queues.queued n next).1 (by simp [hqueue])
    have hnodup := h.queues.nodup t.semaphore
    rw [hqueue, List.nodup_cons] at hnodup
    refine ⟨h.placed.of_moves (moves_setPhase (s := s.setSemaphore t.semaphore _) ht
      (by simp [hwait])) rfl rfl, ?_, fun m hm => ?_⟩
    · refine h.queues.setQueue ht (fun j => ?_) hnodup.2 (fun _ => h.transit.1)
      rw [hqueue, List.mem_cons]
      constructor
      · intro hj
        refine .inr ⟨?_, .inr hj⟩
        rintro rfl
        exact hnodup.1 hj
      · rintro (⟨-, hphase⟩ | ⟨hne, hj⟩)
        · cases hphase
        · exact hj.resolve_left hne
    · by_cases hmn : m = t.semaphore
      · subst hmn
        refine .inr ⟨?_, next, ?_, ?_⟩
        · rw [semaphores_setPhase, semaphores_same]
          exact h.transit.1
        · exact (at_setPhase (get?_setSemaphore.trans ht)).2 (.inl ⟨rfl, rfl, rfl⟩)
        · intro j hj
          rcases (at_setPhase (get?_setSemaphore.trans ht)).1 hj with ⟨rfl, -, -⟩ | ⟨-, hj⟩
          · rfl
          · exact absurd hj (h.transit.2 j)
      · refine (h.permit m hm hmn).congr ?_
          (fun j => at_setPhase_other (get?_setSemaphore.trans ht) hmn)
        rw [semaphores_setPhase, semaphores_other hmn]

/-- A task gives up the permit it has. -/
theorem Inv.loose (h : Inv s) (ht : s.tickets.get? i = some t) (hp : t.phase.hasPermit = true) :
    Loose (s.setPhase i .returned) t.semaphore := by
  have hone := h.permit t.semaphore (h.placed.bound i t ht)
  have hholds : Holder s t.semaphore i := ⟨t, ht, rfl, hp⟩
  have hwait : t.phase ≠ .waiting := by
    intro hw
    rw [hw] at hp
    cases hp
  have hchecked : t.phase ≠ .checked := by
    intro hc
    rw [hc] at hp
    cases hp
  rcases hone with ⟨-, hnone⟩ | ⟨hzero, k, -, hunique⟩
  · exact absurd hholds (hnone i)
  · refine ⟨h.placed.of_moves (moves_setPhase ht (fun _ => hchecked)) rfl rfl,
      h.queues.setPhase ht hwait (by simp), ⟨hzero, fun j hj => ?_⟩, fun m hm hmn => ?_⟩
    · rcases (at_setPhase ht).1 hj with ⟨-, -, hphase⟩ | ⟨hne, hj⟩
      · cases hphase
      · exact hne ((hunique j hj).trans (hunique i hholds).symm)
    · exact (h.permit m hm).congr rfl (fun j => at_setPhase_other ht hmn)

/-! ## A ticket is dropped -/

theorem Inv.cancelWaiting (h : Inv s) (ht : s.tickets.get? i = some t) (hp : t.phase = .waiting) :
    Inv ((s.leaveQueue t).setPhase i .returned) := by
  have hi := task_of_get ht
  unfold TcpState.leaveQueue
  simp only [hi]
  refine ⟨h.placed.of_moves (moves_setPhase (s := s.setSemaphore t.semaphore _) ht
    (by simp [hp])) rfl rfl, ?_, fun m hm => ?_⟩
  · refine h.queues.setQueue ht (fun j => ?_) ((h.queues.nodup _).filter _) (fun hne => ?_)
    · simp [and_comm]
    · refine h.queues.idle _ (fun hempty => hne ?_)
      rw [hempty]
      rfl
  · refine OnePermit.setPhase (OnePermit.setQueue (h.permit m hm) ?_) (get?_setSemaphore.trans ht) ?_
    · rfl
    · rw [hp]
      rfl

/-- The entry that the last ticket removes is not that of another ticket. -/
theorem placed_check (h : Placed s) (ht : s.tickets.get? i = some t) (hp : t.phase = .returned) :
    Placed ((s.check t).setPhase i .checked) := by
  unfold TcpState.check
  split
  · rename_i hone
    have honly := (strongCount_one ht (by rw [hp]; rfl)).1 hone
    have hmoves : Moves s (s.setPhase i .checked) := moves_setPhase ht (by simp)
    constructor
    · intro j u hu hc
      rcases get?_setPhase_some hu with ⟨-, v, -, rfl⟩ | ⟨hne, hu⟩
      · exact absurd rfl hc
      · have hentry := h.entry j u hu hc
        simp only [ips_setPhase, Table.get?_erase]
        rw [if_neg, hentry]
        intro hip
        have hme := h.entry i t ht (by simp [hp])
        rw [← hip, hentry, Option.some.injEq, Prod.mk.injEq] at hme
        exact hne (honly j u hu hme.2)
    · intro j u hu
      obtain ⟨v, hv, -, hm, -⟩ := hmoves j u hu
      rw [hm]
      exact h.bound j v hv
    · intro ip e he
      simp only [ips_setPhase, Table.get?_erase] at he
      split at he
      · cases he
      · exact h.entryBound ip e he
    · intro ip e he j u hu hme
      simp only [ips_setPhase, Table.get?_erase] at he
      obtain ⟨v, hv, hip, hm, -⟩ := hmoves j u hu
      split at he
      · cases he
      · rw [hip]
        exact h.ofEntry ip e he j v hv (hm.symm.trans hme)
    · intro j u k v hu hv hm
      obtain ⟨u', hu', hip, hmu, -⟩ := hmoves j u hu
      obtain ⟨v', hv', hip', hmv, -⟩ := hmoves k v hv
      rw [hip, hip']
      exact h.sameIp j u' k v' hu' hv' (hmu.symm.trans (hm.trans hmv))
  · exact h.of_moves (moves_setPhase ht (by simp)) rfl rfl

theorem Inv.check (h : Inv s) (ht : s.tickets.get? i = some t) (hp : t.phase = .returned) :
    Inv ((s.check t).setPhase i .checked) := by
  have hsame : ∃ table, s.check t = { s with ips := table } := by
    unfold TcpState.check
    split
    · exact ⟨_, rfl⟩
    · exact ⟨s.ips, rfl⟩
  refine ⟨placed_check h.placed ht hp, ?_, fun m hm => ?_⟩
  · obtain ⟨table, hs⟩ := hsame
    rw [hs]
    have hqueues : Queues { s with ips := table } :=
      ⟨h.queues.queued, h.queues.nodup, h.queues.idle⟩
    refine Queues.setPhase hqueues ht ?_ ?_
    · simp [hp]
    · simp
  · obtain ⟨table, hs⟩ := hsame
    rw [hs] at hm ⊢
    have hpermit : OnePermit { s with ips := table } m := h.permit m hm
    refine hpermit.setPhase ht ?_
    rw [hp]
    rfl

/-- A ticket whose critical section has run is in nobody's way. -/
theorem Inv.release (h : Inv s) (ht : s.tickets.get? i = some t) (hp : t.phase = .checked) :
    Inv { s with tickets := s.tickets.erase i } := by
  have hat : ∀ m (P : Phase → Prop) j, ¬ P .checked →
      (At { s with tickets := s.tickets.erase i } m P j ↔ At s m P j) := by
    intro m P j hP
    unfold At
    simp only [Table.get?_erase]
    by_cases hj : j = i
    · subst hj
      simp [ht, hp, hP]
    · simp [hj]
  refine ⟨h.placed.of_moves ?_ rfl rfl, ⟨fun m j => ?_, h.queues.nodup, h.queues.idle⟩,
    fun m hm => ?_⟩
  · intro j u hu
    simp only [Table.get?_erase] at hu
    split at hu
    · cases hu
    · exact ⟨u, hu, rfl, rfl, id⟩
  · exact (h.queues.queued m j).trans (hat m _ j (by simp)).symm
  · exact (h.permit m hm).congr rfl (fun j => hat m _ j (by simp [Phase.hasPermit]))

/-! ## All steps -/

/-- What a step is. -/
inductive Stepped (s : TcpState) : Action → TcpState → Prop
  | acquire {task : Nat} {ip : IpAddr} (fresh : s.tickets.get? task = none) :
      Stepped s (.acquire task ip) (s.register task ip)
  | request {i : Nat} {t : Ticket} (get : s.tickets.get? i = some t) (phase : t.phase = .registered) :
      Stepped s (.request i) (s.request t)
  | poll {i : Nat} {t : Ticket} (get : s.tickets.get? i = some t) (phase : t.phase = .granted) :
      Stepped s (.poll i) (s.setPhase i .holding)
  | cancelWaiting {i : Nat} {t : Ticket} (get : s.tickets.get? i = some t)
      (phase : t.phase = .waiting) :
      Stepped s (.cancel i) ((s.leaveQueue t).setPhase i .returned)
  | cancelGranted {i : Nat} {t : Ticket} (get : s.tickets.get? i = some t)
      (phase : t.phase = .granted) :
      Stepped s (.cancel i) ((s.setPhase i .returned).addPermit t.semaphore)
  | giveBack {i : Nat} {t : Ticket} (get : s.tickets.get? i = some t) (phase : t.phase = .holding) :
      Stepped s (.giveBack i) ((s.setPhase i .returned).addPermit t.semaphore)
  | check {i : Nat} {t : Ticket} (get : s.tickets.get? i = some t) (phase : t.phase = .returned) :
      Stepped s (.check i) ((s.check t).setPhase i .checked)
  | release {i : Nat} {t : Ticket} (get : s.tickets.get? i = some t) (phase : t.phase = .checked) :
      Stepped s (.release i) { s with tickets := s.tickets.erase i }

theorem stepped_of_step {a : Action} (h : s.step a = some s') : Stepped s a s' := by
  unfold TcpState.step at h
  cases hget : s.tickets.get? a.task with
  | none =>
    rw [hget] at h
    cases a with
    | acquire task ip =>
      cases h
      exact .acquire hget
    | request task => cases h
    | poll task => cases h
    | cancel task => cases h
    | giveBack task => cases h
    | check task => cases h
    | release task => cases h
  | some t =>
    rw [hget] at h
    have hi := task_of_get hget
    cases a with
    | acquire task ip => cases h
    | request task =>
      obtain ⟨hp, h⟩ := Option.ite_none_right_eq_some.1 h
      cases h
      exact .request hget hp
    | poll task =>
      obtain ⟨hp, h⟩ := Option.ite_none_right_eq_some.1 h
      cases h
      rw [show t.task = task from hi]
      exact .poll hget hp
    | cancel task =>
      simp only [TcpState.stepTicket] at h
      split at h
      · rename_i hp
        cases h
        rw [show t.task = task from hi]
        exact .cancelWaiting hget hp
      · obtain ⟨hp, h⟩ := Option.ite_none_right_eq_some.1 h
        cases h
        rw [show t.task = task from hi]
        exact .cancelGranted hget hp
    | giveBack task =>
      obtain ⟨hp, h⟩ := Option.ite_none_right_eq_some.1 h
      cases h
      rw [show t.task = task from hi]
      exact .giveBack hget hp
    | check task =>
      obtain ⟨hp, h⟩ := Option.ite_none_right_eq_some.1 h
      cases h
      rw [show t.task = task from hi]
      exact .check hget hp
    | release task =>
      obtain ⟨hp, h⟩ := Option.ite_none_right_eq_some.1 h
      cases h
      rw [show t.task = task from hi]
      exact .release hget hp

/-- **Every step keeps the invariant.** -/
theorem Inv.step (h : Inv s) {a : Action} (hs : Stepped s a s') : Inv s' := by
  cases hs with
  | acquire fresh => exact h.register _ fresh
  | request get phase => exact h.request get phase
  | poll get phase =>
    refine ⟨h.placed.of_moves (moves_setPhase get (by simp [phase])) rfl rfl,
      h.queues.setPhase get (by simp [phase]) (by simp), fun m hm => ?_⟩
    refine (h.permit m hm).setPhase get ?_
    rw [phase]
    rfl
  | cancelWaiting get phase => exact h.cancelWaiting get phase
  | cancelGranted get phase => exact (h.loose get (by rw [phase]; rfl)).addPermit
  | giveBack get phase => exact (h.loose get (by rw [phase]; rfl)).addPermit
  | check get phase => exact h.check get phase
  | release get phase => exact h.release get phase

end BtSniffer.TcpLimits
