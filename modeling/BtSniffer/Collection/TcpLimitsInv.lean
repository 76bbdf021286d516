import BtSniffer.Collection.TcpLimits
import Mathlib.Algebra.BigOperators.Group.List.Basic

/-!
# The invariant of the TCP permits

* `Placed`, `Queues` — where the tickets and the waiters are.
* `OnePermit` — a semaphore's permit is free, or with one task.
* `Inv` — all of them; every step keeps it (`Inv.step`).
-/

set_option autoImplicit false

namespace BtSniffer.TcpLimits

open Relational

variable {s s' : TcpState} {t u : Ticket} {i j : Nat}

/-! ## Look-ups -/

theorem task_of_get (h : s.tickets.get? i = some t) : t.task = i := (Table.get?_eq_some.1 h).2

@[simp] theorem get?_setPhase (s : TcpState) (task : Nat) (phase : Phase) (i : Nat) :
    (s.setPhase task phase).tickets.get? i =
      if i = task then (s.tickets.get? i).map (fun t => { t with phase }) else s.tickets.get? i := by
  unfold TcpState.setPhase
  rw [Table.get?_update]
  cases h : s.tickets.get? i with
  | none => simp
  | some t =>
    have hi := task_of_get h
    by_cases hit : i = task <;> simp [hi, hit]

@[simp] theorem ips_setPhase (s : TcpState) (task : Nat) (phase : Phase) :
    (s.setPhase task phase).ips = s.ips := rfl

@[simp] theorem semaphores_setPhase (s : TcpState) (task : Nat) (phase : Phase) :
    (s.setPhase task phase).semaphores = s.semaphores := rfl

@[simp] theorem created_setPhase (s : TcpState) (task : Nat) (phase : Phase) :
    (s.setPhase task phase).created = s.created := rfl

@[simp] theorem tickets_setSemaphore (s : TcpState) (m : Nat) (value : Semaphore) :
    (s.setSemaphore m value).tickets = s.tickets := rfl

@[simp] theorem ips_setSemaphore (s : TcpState) (m : Nat) (value : Semaphore) :
    (s.setSemaphore m value).ips = s.ips := rfl

@[simp] theorem created_setSemaphore (s : TcpState) (m : Nat) (value : Semaphore) :
    (s.setSemaphore m value).created = s.created := rfl

@[simp] theorem semaphores_setSemaphore (s : TcpState) (m : Nat) (value : Semaphore) :
    (s.setSemaphore m value).semaphores = Function.update s.semaphores m value := rfl

/-- What a task is after another one went on. -/
theorem get?_setPhase_some {task : Nat} {phase : Phase}
    (h : (s.setPhase task phase).tickets.get? i = some t) :
    (i = task ∧ ∃ u, s.tickets.get? i = some u ∧ t = { u with phase }) ∨
      (i ≠ task ∧ s.tickets.get? i = some t) := by
  rw [get?_setPhase] at h
  split at h
  · rename_i hit
    obtain ⟨u, hu, rfl⟩ := Option.map_eq_some_iff.1 h
    exact .inl ⟨hit, u, hu, rfl⟩
  · rename_i hit
    exact .inr ⟨hit, h⟩

/-! ## Handles -/

/-- There is a handle exactly if there is a ticket. -/
theorem strongCount_pos {m : Nat} :
    0 < s.strongCount m ↔ ∃ i t, s.tickets.get? i = some t ∧ t.semaphore = m := by
  unfold TcpState.strongCount
  rw [List.sum_pos_iff_exists_pos_nat]
  constructor
  · rintro ⟨n, hn, hpos⟩
    obtain ⟨t, ht, rfl⟩ := List.mem_map.1 hn
    refine ⟨t.task, t, Table.get?_key ht, ?_⟩
    by_contra hne
    simp [hne] at hpos
  · rintro ⟨i, t, ht, rfl⟩
    have hmem := (Table.get?_eq_some.1 ht).1
    have hpos : 0 < t.phase.handles := by cases t.phase <;> decide
    exact ⟨_, List.mem_map.2 ⟨t, hmem, rfl⟩, by simpa using hpos⟩

/-- The ticket's own handle is the only one exactly if no other task has a ticket of the semaphore. -/
theorem strongCount_one (h : s.tickets.get? i = some t) (hp : t.phase.handles = 1) :
    s.strongCount t.semaphore = 1 ↔
      ∀ j u, s.tickets.get? j = some u → u.semaphore = t.semaphore → j = i := by
  have hrest : s.strongCount t.semaphore = 1 +
      (({ s with tickets := s.tickets.erase i } : TcpState).strongCount t.semaphore) := by
    unfold TcpState.strongCount
    rw [((Table.perm_erase h).map _).sum_eq, List.map_cons, List.sum_cons, if_pos rfl, hp]
  rw [hrest]
  constructor
  · intro hone j u hu hm
    by_contra hj
    have hpos : 0 < ({ s with tickets := s.tickets.erase i } : TcpState).strongCount t.semaphore :=
      strongCount_pos.2 ⟨j, u, by simp [hj, hu], hm⟩
    omega
  · intro honly
    have hzero : ¬ 0 < ({ s with tickets := s.tickets.erase i } : TcpState).strongCount
        t.semaphore := by
      intro hpos
      obtain ⟨j, u, hu, hm⟩ := strongCount_pos.1 hpos
      rw [Table.get?_erase] at hu
      split at hu
      · cases hu
      · rename_i hj
        exact hj (honly j u hu hm)
    omega

/-! ## Invariant -/

/-- A task has a ticket of the semaphore, in one of these phases. -/
def At (s : TcpState) (m : Nat) (P : Phase → Prop) (i : Nat) : Prop :=
  ∃ t, s.tickets.get? i = some t ∧ t.semaphore = m ∧ P t.phase

/-- The task has the permit of the semaphore. -/
def Holder (s : TcpState) (m : Nat) (i : Nat) : Prop := At s m (fun p => p.hasPermit = true) i

/-- The task waits for the semaphore. -/
def Waiter (s : TcpState) (m : Nat) (i : Nat) : Prop := At s m (fun p => p = .waiting) i

/-- Where the tickets are: a ticket whose critical section of `drop` has not run is that of the entry
of its IP. -/
structure Placed (s : TcpState) : Prop where
  entry : ∀ i t, s.tickets.get? i = some t → t.phase ≠ .checked →
    s.ips.get? t.ip = some (t.ip, t.semaphore)
  bound : ∀ i t, s.tickets.get? i = some t → t.semaphore < s.created
  entryBound : ∀ ip e, s.ips.get? ip = some e → e.2 < s.created
  ofEntry : ∀ ip e, s.ips.get? ip = some e → ∀ i t, s.tickets.get? i = some t →
    t.semaphore = e.2 → t.ip = ip
  sameIp : ∀ i t j u, s.tickets.get? i = some t → s.tickets.get? j = some u →
    t.semaphore = u.semaphore → t.ip = u.ip

/-- The queues are the waiting tasks; with waiters there is no free permit. -/
structure Queues (s : TcpState) : Prop where
  queued : ∀ m i, i ∈ (s.semaphores m).queue ↔ Waiter s m i
  nodup : ∀ m, (s.semaphores m).queue.Nodup
  idle : ∀ m, (s.semaphores m).queue ≠ [] → (s.semaphores m).permits = 0

/-- The permit of a semaphore is in no place. -/
def InTransit (s : TcpState) (m : Nat) : Prop :=
  (s.semaphores m).permits = 0 ∧ ∀ i, ¬ Holder s m i

/-- The permit of a semaphore is free, or with one task. -/
def OnePermit (s : TcpState) (m : Nat) : Prop :=
  ((s.semaphores m).permits = 1 ∧ ∀ i, ¬ Holder s m i) ∨
  ((s.semaphores m).permits = 0 ∧ ∃ i, Holder s m i ∧ ∀ j, Holder s m j → j = i)

/-- The invariant. -/
structure Inv (s : TcpState) : Prop where
  placed : Placed s
  queues : Queues s
  permit : ∀ m, m < s.created → OnePermit s m

theorem inv_default : Inv .default where
  placed := ⟨fun _ _ h => (by cases h), fun _ _ h => (by cases h), fun _ _ h => (by cases h),
    fun _ _ h => (by cases h), fun _ _ _ _ h => (by cases h)⟩
  queues := by
    refine ⟨fun m i => ?_, fun m => List.nodup_nil, fun m h => absurd rfl h⟩
    constructor
    · intro h
      cases h
    · rintro ⟨t, ht, -⟩
      cases ht
  permit := fun m h => absurd h (Nat.not_lt_zero m)

/-! ## One task goes on -/

theorem at_setPhase (h : s.tickets.get? i = some t) {phase : Phase} {m : Nat} {P : Phase → Prop} :
    At (s.setPhase i phase) m P j ↔ (j = i ∧ t.semaphore = m ∧ P phase) ∨ (j ≠ i ∧ At s m P j) := by
  unfold At
  rw [get?_setPhase]
  by_cases hj : j = i
  · subst hj
    simp [h]
  · simp [hj]

/-- Tasks with a ticket of another semaphore do not notice. -/
theorem at_setPhase_other (h : s.tickets.get? i = some t) {phase : Phase} {m : Nat}
    {P : Phase → Prop} (hm : m ≠ t.semaphore) : At (s.setPhase i phase) m P j ↔ At s m P j := by
  rw [at_setPhase h]
  constructor
  · rintro (⟨-, hmt, -⟩ | ⟨-, hj⟩)
    · exact absurd hmt.symm hm
    · exact hj
  · intro hj
    refine .inr ⟨?_, hj⟩
    rintro rfl
    obtain ⟨u, hu, hmu, -⟩ := hj
    rw [h] at hu
    cases hu
    exact hm hmu.symm

/-- The tickets of a state come from another one, and none is unchecked again. -/
def Moves (s s' : TcpState) : Prop :=
  ∀ i t', s'.tickets.get? i = some t' → ∃ t, s.tickets.get? i = some t ∧ t'.ip = t.ip ∧
    t'.semaphore = t.semaphore ∧ (t'.phase ≠ .checked → t.phase ≠ .checked)

theorem Moves.refl (s : TcpState) : Moves s s := fun _ t h => ⟨t, h, rfl, rfl, id⟩

theorem moves_setPhase (h : s.tickets.get? i = some t) {phase : Phase}
    (hc : phase ≠ .checked → t.phase ≠ .checked) : Moves s (s.setPhase i phase) := by
  intro j t' ht'
  rcases get?_setPhase_some ht' with ⟨rfl, u, hu, rfl⟩ | ⟨-, hj⟩
  · rw [h] at hu
    cases hu
    exact ⟨t, h, rfl, rfl, hc⟩
  · exact ⟨t', hj, rfl, rfl, id⟩

theorem Placed.of_moves (h : Placed s) (hmoves : Moves s s') (hips : s'.ips = s.ips)
    (hcreated : s'.created = s.created) : Placed s' where
  entry := by
    intro i t' ht' hc
    obtain ⟨t, ht, hip, hm, hp⟩ := hmoves i t' ht'
    rw [hips, hip, hm]
    exact h.entry i t ht (hp hc)
  bound := by
    intro i t' ht'
    obtain ⟨t, ht, -, hm, -⟩ := hmoves i t' ht'
    rw [hm, hcreated]
    exact h.bound i t ht
  entryBound := by
    rw [hips, hcreated]
    exact h.entryBound
  ofEntry := by
    intro ip e he i t' ht' hme
    obtain ⟨t, ht, hip, hm, -⟩ := hmoves i t' ht'
    rw [hips] at he
    rw [hip]
    exact h.ofEntry ip e he i t ht (hm.symm.trans hme)
  sameIp := by
    intro i t' j u' ht' hu' hmu
    obtain ⟨t, ht, hip, hm, -⟩ := hmoves i t' ht'
    obtain ⟨u, hu, hip', hm', -⟩ := hmoves j u' hu'
    rw [hip, hip']
    exact h.sameIp i t j u ht hu (hm.symm.trans (hmu.trans hm'))

/-- Nothing changes for the queues if a task goes on that does not wait. -/
theorem Queues.setPhase (h : Queues s) (ht : s.tickets.get? i = some t) {phase : Phase}
    (hw : t.phase ≠ .waiting) (hw' : phase ≠ .waiting) : Queues (s.setPhase i phase) where
  queued := by
    intro m j
    rw [semaphores_setPhase, h.queued]
    unfold Waiter
    rw [at_setPhase ht]
    constructor
    · intro hj
      refine .inr ⟨?_, hj⟩
      rintro rfl
      obtain ⟨u, hu, -, hwait⟩ := hj
      rw [ht] at hu
      cases hu
      exact hw hwait
    · rintro (⟨-, -, hphase⟩ | ⟨-, hj⟩)
      · exact absurd hphase hw'
      · exact hj
  nodup := h.nodup
  idle := h.idle

theorem OnePermit.congr {m : Nat} (h : OnePermit s m)
    (hp : (s'.semaphores m).permits = (s.semaphores m).permits)
    (hh : ∀ i, Holder s' m i ↔ Holder s m i) : OnePermit s' m := by
  unfold OnePermit at h ⊢
  simpa only [hp, hh] using h

/-- Nothing changes for the permits if a task goes on that has the permit before and after, or neither. -/
theorem OnePermit.setPhase {m : Nat} (h : OnePermit s m) (ht : s.tickets.get? i = some t)
    {phase : Phase} (hp : phase.hasPermit = t.phase.hasPermit) : OnePermit (s.setPhase i phase) m := by
  refine h.congr rfl (fun j => ?_)
  unfold Holder
  rw [at_setPhase ht]
  constructor
  · rintro (⟨rfl, hm, hphase⟩ | ⟨-, hj⟩)
    · exact ⟨t, ht, hm, hp.symm.trans hphase⟩
    · exact hj
  · intro hj
    by_cases hji : j = i
    · subst hji
      obtain ⟨u, hu, hm, hphase⟩ := hj
      rw [ht] at hu
      cases hu
      exact .inl ⟨rfl, hm, hp.trans hphase⟩
    · exact .inr ⟨hji, hj⟩

/-! ## A new ticket -/

theorem get?_insert_some {tickets : Table Ticket Ticket.task} {new : Ticket}
    (h : (tickets.insert new).get? i = some t) :
    (i = new.task ∧ t = new) ∨ (i ≠ new.task ∧ tickets.get? i = some t) := by
  rw [Table.get?_insert] at h
  split at h
  · rename_i hi
    exact .inl ⟨hi.symm, (Option.some.inj h).symm⟩
  · rename_i hi
    exact .inr ⟨fun he => hi he.symm, h⟩

/-- A ticket that was only registered neither waits nor has a permit. -/
theorem at_insert {new : Ticket} (hfresh : s.tickets.get? new.task = none)
    (htickets : s'.tickets = s.tickets.insert new) {m : Nat} {P : Phase → Prop} (hP : ¬ P new.phase) :
    At s' m P j ↔ At s m P j := by
  unfold At
  rw [htickets, Table.get?_insert]
  by_cases hj : new.task = j
  · subst hj
    simp [hfresh, hP]
  · simp [hj]

theorem upgrade_some {ip : IpAddr} {e : IpAddr × Nat}
    (h : (s.ips.get? ip).filter (fun entry => decide (0 < s.strongCount entry.2)) = some e) :
    s.ips.get? ip = some e ∧ e.1 = ip ∧ ∃ i t, s.tickets.get? i = some t ∧ t.semaphore = e.2 := by
  obtain ⟨hget, hcount⟩ := Option.filter_eq_some_iff.1 h
  exact ⟨hget, (Table.get?_eq_some.1 hget).2, strongCount_pos.1 (by simpa using hcount)⟩

/-- If there is no semaphore to upgrade, no ticket of the IP is unchecked. -/
theorem upgrade_none {ip : IpAddr} (h : Placed s)
    (hnone : (s.ips.get? ip).filter (fun entry => decide (0 < s.strongCount entry.2)) = none)
    (ht : s.tickets.get? i = some t) (hc : t.phase ≠ .checked) : t.ip ≠ ip := by
  rintro rfl
  have hentry := h.entry i t ht hc
  have hcount := strongCount_pos.2 ⟨i, t, ht, rfl⟩
  rw [hentry, Option.filter_some] at hnone
  simp [hcount] at hnone

theorem placed_register (h : Placed s) {task : Nat} (ip : IpAddr) :
    Placed (s.register task ip) := by
  unfold TcpState.register
  split
  · rename_i e hup
    obtain ⟨hget, hip, v, tv, htv, hmv⟩ := upgrade_some hup
    constructor
    · intro i t ht hc
      rcases get?_insert_some ht with ⟨-, rfl⟩ | ⟨-, ht⟩
      · subst hip
        exact hget
      · exact h.entry i t ht hc
    · intro i t ht
      rcases get?_insert_some ht with ⟨-, rfl⟩ | ⟨-, ht⟩
      · have := h.bound v tv htv
        rwa [hmv] at this
      · exact h.bound i t ht
    · exact h.entryBound
    · intro ip' e' he' i t ht hm
      rcases get?_insert_some ht with ⟨-, rfl⟩ | ⟨-, ht⟩
      · rw [← h.ofEntry ip' e' he' v tv htv (hmv.trans hm), h.ofEntry ip e hget v tv htv hmv]
      · exact h.ofEntry ip' e' he' i t ht hm
    · intro i t j u ht hu hm
      rcases get?_insert_some ht with ⟨-, rfl⟩ | ⟨-, ht⟩
      · rcases get?_insert_some hu with ⟨-, rfl⟩ | ⟨-, hu⟩
        · rfl
        · exact (h.ofEntry ip e hget j u hu hm.symm).symm
      · rcases get?_insert_some hu with ⟨-, rfl⟩ | ⟨-, hu⟩
        · exact h.ofEntry ip e hget i t ht hm
        · exact h.sameIp i t j u ht hu hm
  · rename_i hnone
    constructor
    · intro i t ht hc
      rcases get?_insert_some ht with ⟨-, rfl⟩ | ⟨-, ht⟩
      · simp
      · have hne := upgrade_none h hnone ht hc
        simp only [Table.get?_insert]
        rw [if_neg (Ne.symm hne)]
        exact h.entry i t ht hc
    · intro i t ht
      rcases get?_insert_some ht with ⟨-, rfl⟩ | ⟨-, ht⟩
      · exact Nat.lt_succ_self _
      · exact Nat.lt_succ_of_lt (h.bound i t ht)
    · intro ip' e' he'
      simp only [Table.get?_insert] at he'
      split at he'
      · cases he'
        exact Nat.lt_succ_self _
      · exact Nat.lt_succ_of_lt (h.entryBound ip' e' he')
    · intro ip' e' he' i t ht hm
      simp only [Table.get?_insert] at he'
      rcases get?_insert_some ht with ⟨-, rfl⟩ | ⟨-, ht⟩
      · split at he'
        · rename_i hip
          exact hip
        · exact absurd (hm ▸ h.entryBound ip' e' he') (lt_irrefl _)
      · split at he'
        · cases he'
          exact absurd (hm ▸ h.bound i t ht) (lt_irrefl _)
        · exact h.ofEntry ip' e' he' i t ht hm
    · intro i t j u ht hu hm
      rcases get?_insert_some ht with ⟨-, rfl⟩ | ⟨-, ht⟩
      · rcases get?_insert_some hu with ⟨-, rfl⟩ | ⟨-, hu⟩
        · rfl
        · exact absurd (hm ▸ h.bound j u hu) (lt_irrefl _)
      · rcases get?_insert_some hu with ⟨-, rfl⟩ | ⟨-, hu⟩
        · exact absurd (hm ▸ h.bound i t ht) (lt_irrefl _)
        · exact h.sameIp i t j u ht hu hm

/-- No task has a ticket of a semaphore that is still to be created. -/
theorem not_at_created (h : Placed s) {P : Phase → Prop} : ¬ At s s.created P i := by
  rintro ⟨t, ht, hm, -⟩
  exact absurd (hm ▸ h.bound i t ht) (lt_irrefl _)

theorem Inv.register (h : Inv s) {task : Nat} (ip : IpAddr) (hfresh : s.tickets.get? task = none) :
    Inv (s.register task ip) := by
  refine ⟨placed_register h.placed ip, ?_, ?_⟩
  · unfold TcpState.register
    split
    · rename_i e hup
      refine ⟨fun m j => ?_, h.queues.nodup, h.queues.idle⟩
      exact (h.queues.queued m j).trans (at_insert hfresh rfl (by simp)).symm
    · have hother : ∀ m, m ≠ s.created →
          (Function.update s.semaphores s.created ⟨1, []⟩) m = s.semaphores m :=
        fun m hm => Function.update_of_ne hm _ _
      refine ⟨fun m j => ?_, fun m => ?_, fun m hq => ?_⟩
      · refine Iff.trans ?_ (at_insert hfresh rfl (by simp)).symm
        by_cases hm : m = s.created
        · subst hm
          simp [not_at_created h.placed]
        · simp only [hother m hm]
          exact h.queues.queued m j
      · by_cases hm : m = s.created
        · subst hm
          simp
        · simp only [hother m hm]
          exact h.queues.nodup m
      · by_cases hm : m = s.created
        · subst hm
          simp at hq
        · simp only [hother m hm] at hq ⊢
          exact h.queues.idle m hq
  · unfold TcpState.register
    split
    · intro m hm
      exact (h.permit m hm).congr rfl (fun j => at_insert hfresh rfl (by simp [Phase.hasPermit]))
    · intro m hm
      by_cases hm' : m = s.created
      · subst hm'
        refine .inl ⟨by simp, fun j hj => ?_⟩
        exact not_at_created h.placed ((at_insert hfresh rfl (by simp [Phase.hasPermit])).1 hj)
      · refine (h.permit m (by simp only at hm; omega)).congr ?_
          (fun j => at_insert hfresh rfl (by simp [Phase.hasPermit]))
        simp [Function.update_of_ne hm']

end BtSniffer.TcpLimits
