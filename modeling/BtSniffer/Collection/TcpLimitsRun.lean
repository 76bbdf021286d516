import BtSniffer.Collection.TcpLimitsSteps

/-!
# Runs of the TCP permits

* `Run` — the states that are reached by steps in any order.
* `Live` — every entry of the table has a ticket that will still be checked.  A critical section of
  `TcpTicket::drop` keeps it if it finds the only handle, or if some other handle belongs to a ticket
  that is still to be checked (`Orderly`).  Otherwise nobody will remove the entry.
* `tcp_permits` — one permit for each IP, one semaphore for the tasks of an IP, and no entry left in
  runs of orderly steps; `tcp_permits_entry_left` is a run that leaves one.
-/

set_option autoImplicit false

namespace BtSniffer.TcpLimits

open Relational

variable {s s' : TcpState} {t u : Ticket} {i j : Nat}

/-- The states reached by steps that are allowed. -/
inductive Run (allowed : TcpState → Action → Prop) : TcpState → Prop
  | start : Run allowed .default
  | step {s s' : TcpState} {a : Action} (run : Run allowed s) (ok : allowed s a)
      (step : s.step a = some s') : Run allowed s'

/-- All interleavings. -/
def AnyOrder (_ : TcpState) (_ : Action) : Prop := True

/-- The critical section of `TcpTicket::drop` finds the only handle, or the handle of a ticket that is
still to be checked. -/
def Orderly (s : TcpState) (a : Action) : Prop :=
  ∀ i t, a = .check i → s.tickets.get? i = some t → s.strongCount t.semaphore = 1 ∨
    ∃ j u, j ≠ i ∧ s.tickets.get? j = some u ∧ u.semaphore = t.semaphore ∧ u.phase ≠ .checked

theorem Run.inv {allowed : TcpState → Action → Prop} (h : Run allowed s) : Inv s := by
  induction h with
  | start => exact inv_default
  | step _ _ hstep ih => exact ih.step (stepped_of_step hstep)

/-! ## Entries -/

/-- Every entry has a ticket that is still to be checked. -/
def Live (s : TcpState) : Prop :=
  ∀ ip e, s.ips.get? ip = some e → ∃ i t, s.tickets.get? i = some t ∧ t.ip = ip ∧
    t.semaphore = e.2 ∧ t.phase ≠ .checked

/-- The tickets that are still to be checked stay so. -/
def Keeps (s s' : TcpState) : Prop :=
  ∀ i t, s.tickets.get? i = some t → t.phase ≠ .checked → ∃ t', s'.tickets.get? i = some t' ∧
    t'.ip = t.ip ∧ t'.semaphore = t.semaphore ∧ t'.phase ≠ .checked

theorem Keeps.trans {s₁ s₂ s₃ : TcpState} (h : Keeps s₁ s₂) (h' : Keeps s₂ s₃) : Keeps s₁ s₃ := by
  intro i t ht hc
  obtain ⟨t', ht', hip, hm, hc'⟩ := h i t ht hc
  obtain ⟨t'', ht'', hip', hm', hc''⟩ := h' i t' ht' hc'
  exact ⟨t'', ht'', hip'.trans hip, hm'.trans hm, hc''⟩

theorem keeps_setPhase {phase : Phase} (hp : phase ≠ .checked) : Keeps s (s.setPhase i phase) := by
  intro j t ht hc
  by_cases hj : j = i
  · subst hj
    exact ⟨{ t with phase }, by simp [ht], rfl, rfl, hp⟩
  · exact ⟨t, by simp [hj, ht], rfl, rfl, hc⟩

theorem keeps_setSemaphore {n : Nat} {value : Semaphore} : Keeps s (s.setSemaphore n value) :=
  fun _ t ht hc => ⟨t, ht, rfl, rfl, hc⟩

theorem keeps_addPermit {n : Nat} : Keeps s (s.addPermit n) := by
  unfold TcpState.addPermit
  simp only
  split
  · exact keeps_setSemaphore
  · exact keeps_setSemaphore.trans (keeps_setPhase (by simp))

theorem Live.of_keeps (h : Live s) (hkeeps : Keeps s s') (hips : s'.ips = s.ips) : Live s' := by
  intro ip e he
  rw [hips] at he
  obtain ⟨i, t, ht, hip, hm, hc⟩ := h ip e he
  obtain ⟨t', ht', hip', hm', hc'⟩ := hkeeps i t ht hc
  exact ⟨i, t', ht', hip'.trans hip, hm'.trans hm, hc'⟩

theorem ips_addPermit (s : TcpState) (n : Nat) : (s.addPermit n).ips = s.ips := by
  unfold TcpState.addPermit
  simp only
  split <;> rfl

theorem Live.register (h : Live s) {task : Nat} (ip : IpAddr)
    (hfresh : s.tickets.get? task = none) : Live (s.register task ip) := by
  have hold : ∀ (new : Ticket) i t, new.task = task → s.tickets.get? i = some t →
      (s.tickets.insert new).get? i = some t := by
    intro new i t htask ht
    rw [Table.get?_insert, if_neg, ht]
    rintro rfl
    rw [htask, hfresh] at ht
    cases ht
  unfold TcpState.register
  split
  · intro ip' e' he'
    obtain ⟨i, t, ht, hip, hm, hc⟩ := h ip' e' he'
    exact ⟨i, t, hold _ i t rfl ht, hip, hm, hc⟩
  · intro ip' e' he'
    simp only [Table.get?_insert] at he'
    split at he'
    · rename_i hip
      cases he'
      exact ⟨task, ⟨task, ip, s.created, .registered⟩, by simp, hip, rfl, by simp⟩
    · obtain ⟨i, t, ht, hip, hm, hc⟩ := h ip' e' he'
      exact ⟨i, t, hold _ i t rfl ht, hip, hm, hc⟩

/-- An orderly critical section leaves no entry behind that nobody will remove. -/
theorem Live.check (h : Live s) (hinv : Inv s) (ht : s.tickets.get? i = some t)
    (hp : t.phase = .returned) (hord : Orderly s (.check i)) :
    Live ((s.check t).setPhase i .checked) := by
  have hme := hinv.placed.entry i t ht (by simp [hp])
  unfold TcpState.check
  split
  · intro ip e he
    simp only [ips_setPhase, Table.get?_erase] at he
    split at he
    · cases he
    · rename_i hip
      obtain ⟨j, u, hu, huip, hum, huc⟩ := h ip e he
      have hj : j ≠ i := by
        rintro rfl
        rw [ht] at hu
        cases hu
        exact hip huip.symm
      exact ⟨j, u, by simpa [hj] using hu, huip, hum, huc⟩
  · rename_i hmany
    obtain ⟨k, v, hk, hv, hvm, hvc⟩ := (hord i t rfl ht).resolve_left hmany
    intro ip e he
    simp only [ips_setPhase] at he
    obtain ⟨j, u, hu, huip, hum, huc⟩ := h ip e he
    by_cases hj : j = i
    · -- the ticket itself: another one of its semaphore takes its place
      subst hj
      rw [ht] at hu
      cases hu
      refine ⟨k, v, by simpa [hk] using hv, ?_, hvm.trans hum, hvc⟩
      rw [← huip]
      exact hinv.placed.sameIp k v j t hv ht hvm
    · exact ⟨j, u, by simpa [hj] using hu, huip, hum, huc⟩

theorem Live.step (h : Live s) (hinv : Inv s) {a : Action} (hs : Stepped s a s')
    (hord : Orderly s a) : Live s' := by
  cases hs with
  | acquire fresh => exact h.register _ fresh
  | @request i t get phase =>
    unfold TcpState.request
    simp only
    split
    · exact h.of_keeps (keeps_setSemaphore.trans (keeps_setPhase (by simp))) rfl
    · exact h.of_keeps (keeps_setSemaphore.trans (keeps_setPhase (by simp))) rfl
  | poll get phase => exact h.of_keeps (keeps_setPhase (by simp)) rfl
  | cancelWaiting get phase =>
    exact h.of_keeps (keeps_setSemaphore.trans (keeps_setPhase (by simp))) rfl
  | cancelGranted get phase =>
    exact h.of_keeps ((keeps_setPhase (by simp)).trans keeps_addPermit) (ips_addPermit _ _)
  | giveBack get phase =>
    exact h.of_keeps ((keeps_setPhase (by simp)).trans keeps_addPermit) (ips_addPermit _ _)
  | check get phase => exact h.check hinv get phase hord
  | @release i t get phase =>
    refine h.of_keeps (fun j u hu hc => ?_) rfl
    refine ⟨u, ?_, rfl, rfl, hc⟩
    simp only [Table.get?_erase]
    rw [if_neg, hu]
    rintro rfl
    rw [get] at hu
    cases hu
    exact hc phase

theorem Run.live (h : Run Orderly s) : Live s := by
  induction h with
  | start =>
    intro ip e he
    cases he
  | step hrun hord hstep ih => exact ih.step hrun.inv (stepped_of_step hstep) hord

/-! ## The permits -/

/-- The task is between the critical section of `acquire_for_ip` and the drop of what it waits for or
holds. -/
def Phase.active : Phase → Bool
  | .registered | .waiting | .granted | .holding => true
  | .returned | .checked => false

theorem ne_checked_of_active {p : Phase} (h : p.active = true) : p ≠ .checked := by
  rintro rfl
  cases h

/-- Tickets of an IP that are still to be checked have one semaphore. -/
theorem Inv.one_semaphore (h : Inv s) (ht : s.tickets.get? i = some t)
    (hu : s.tickets.get? j = some u) (hct : t.phase ≠ .checked) (hcu : u.phase ≠ .checked)
    (hip : t.ip = u.ip) : t.semaphore = u.semaphore := by
  have het := h.placed.entry i t ht hct
  have heu := h.placed.entry j u hu hcu
  rw [hip, heu, Option.some.injEq, Prod.mk.injEq] at het
  exact het.2.symm

theorem Inv.one_holder (h : Inv s) {m : Nat} (hi : Holder s m i) (hj : Holder s m j) : i = j := by
  obtain ⟨t, ht, hm, -⟩ := id hi
  rcases h.permit m (hm ▸ h.placed.bound i t ht) with ⟨-, hnone⟩ | ⟨-, k, -, hunique⟩
  · exact absurd hi (hnone i)
  · exact (hunique i hi).trans (hunique j hj).symm

/-- The permit a waiter waits for is with some task of its semaphore. -/
theorem Inv.waiter_holder (h : Inv s) (ht : s.tickets.get? i = some t) (hp : t.phase = .waiting) :
    ∃ j, Holder s t.semaphore j := by
  have hqueue : i ∈ (s.semaphores t.semaphore).queue :=
    (h.queues.queued _ i).2 ⟨t, ht, rfl, hp⟩
  have hzero := h.queues.idle t.semaphore (List.ne_nil_of_mem hqueue)
  rcases h.permit _ (h.placed.bound i t ht) with ⟨hone, -⟩ | ⟨-, k, hk, -⟩
  · omega
  · exact ⟨k, hk⟩

/-- A later acquirer gets the semaphore of the tasks of its IP. -/
theorem Inv.acquire_same (h : Inv s) (ht : s.tickets.get? i = some t) (hc : t.phase ≠ .checked)
    (hfresh : s.tickets.get? j = none) (hu : (s.register j t.ip).tickets.get? j = some u) :
    u.semaphore = t.semaphore := by
  have hinv := h.register t.ip hfresh
  have hij : i ≠ j := by
    rintro rfl
    rw [ht] at hfresh
    cases hfresh
  have hkept : (s.register j t.ip).tickets.get? i = some t ∧ u.ip = t.ip ∧ u.phase = .registered := by
    unfold TcpState.register at hu ⊢
    split at hu
    · rename_i e hup
      simp only [Table.get?_insert, if_true, Option.some.injEq] at hu
      subst hu
      refine ⟨?_, rfl, rfl⟩
      rw [Table.get?_insert, if_neg (Ne.symm hij), ht]
    · rename_i hnone
      exact absurd rfl (upgrade_none h.placed hnone ht hc)
  obtain ⟨hti, hip, hphase⟩ := hkept
  exact hinv.one_semaphore hu hti (by simp [hphase]) hc hip

/-- **TCP permits for an IP.** In every interleaving of the steps,

* no two tasks have a `ConnectionPermit` for one IP;
* the tasks of an IP that wait or hold have one semaphore, a later acquirer of the IP gets it too, and
  the permit of a semaphore with waiters is with one of its tasks.

If every critical section of `TcpTicket::drop` finds the only handle, or a handle of a ticket that is
still to be checked, an IP without tickets has no entry, and without tickets nothing is tracked. -/
theorem tcp_permits (s : TcpState) :
    (Run AnyOrder s →
      (∀ i j t u, s.tickets.get? i = some t → s.tickets.get? j = some u → t.phase = .holding →
        u.phase = .holding → t.ip = u.ip → i = j) ∧
      (∀ i j t u, s.tickets.get? i = some t → s.tickets.get? j = some u → t.phase.active = true →
        u.phase.active = true → t.ip = u.ip → t.semaphore = u.semaphore) ∧
      (∀ i t task s' u, s.tickets.get? i = some t → t.phase.active = true →
        s.step (.acquire task t.ip) = some s' → s'.tickets.get? task = some u →
        u.semaphore = t.semaphore) ∧
      (∀ i t, s.tickets.get? i = some t → t.phase = .waiting →
        ∃ j u, s.tickets.get? j = some u ∧ u.semaphore = t.semaphore ∧
          u.phase.hasPermit = true)) ∧
    (Run Orderly s →
      (∀ ip, (∀ i t, s.tickets.get? i = some t → t.ip ≠ ip) → s.ips.get? ip = none) ∧
      (s.tickets.rows = [] → s.trackedTcpIps = 0)) := by
  refine ⟨fun hrun => ?_, fun hrun => ?_⟩
  · have hinv := hrun.inv
    refine ⟨?_, ?_, ?_, ?_⟩
    · intro i j t u ht hu hpt hpu hip
      have hm := hinv.one_semaphore ht hu (by simp [hpt]) (by simp [hpu]) hip
      have hi : Holder s u.semaphore i := ⟨t, ht, hm, (by rw [hpt]; rfl)⟩
      have hj : Holder s u.semaphore j := ⟨u, hu, rfl, (by rw [hpu]; rfl)⟩
      exact hinv.one_holder hi hj
    · intro i j t u ht hu hat hau hip
      exact hinv.one_semaphore ht hu (ne_checked_of_active hat) (ne_checked_of_active hau) hip
    · intro i t task s' u ht hat hstep hu
      cases stepped_of_step hstep with
      | acquire fresh => exact hinv.acquire_same ht (ne_checked_of_active hat) fresh hu
    · intro i t ht hp
      exact hinv.waiter_holder ht hp
  · have hlive := hrun.live
    have hnone : ∀ ip, (∀ i t, s.tickets.get? i = some t → t.ip ≠ ip) → s.ips.get? ip = none := by
      intro ip hno
      cases he : s.ips.get? ip with
      | none => rfl
      | some e =>
        obtain ⟨i, t, ht, hip, -⟩ := hlive ip e he
        exact absurd hip (hno i t ht)
    refine ⟨hnone, fun hempty => ?_⟩
    unfold TcpState.trackedTcpIps
    rw [List.length_eq_zero_iff, List.eq_nil_iff_forall_not_mem]
    intro e he
    have hget := Table.get?_key he
    obtain ⟨i, t, ht, -⟩ := hlive e.1 e hget
    have hmem := (Table.get?_eq_some.1 ht).1
    rw [hempty] at hmem
    cases hmem

/-! ## An entry that is left -/

/-- Some steps. -/
def TcpState.steps : TcpState → List Action → Option TcpState
  | s, [] => some s
  | s, a :: as => (s.step a).bind (fun s' => s'.steps as)

theorem run_steps : ∀ {as : List Action} {s s' : TcpState}, Run AnyOrder s → s.steps as = some s' →
    Run AnyOrder s'
  | [], s, s', hrun, h => by
    cases h
    exact hrun
  | a :: as, s, s', hrun, h => by
    obtain ⟨s₁, hstep, hrest⟩ := Option.bind_eq_some_iff.1 h
    exact run_steps (hrun.step trivial hstep) hrest

/-- A holder and a waiter: both are checked before the first of them releases its handle. -/
def overlappingDrops (ip : IpAddr) : List Action :=
  [.acquire 0 ip, .request 0, .acquire 1 ip, .request 1, .giveBack 0, .check 0, .poll 1, .giveBack 1,
    .check 1, .release 0, .release 1]

/-- The run ends without tickets and with an entry. -/
theorem tcp_permits_entry_left : ∃ s, Run AnyOrder s ∧ s.tickets.rows = [] ∧
    s.trackedTcpIps = 1 ∧ s.ips.get? (.v4 0) = some (.v4 0, 0) := by
  have hsome : ((TcpState.default.steps (overlappingDrops (.v4 0))).map
      (fun s => (s.tickets.rows, s.trackedTcpIps, s.ips.get? (.v4 0)))) =
      some ([], 1, some (.v4 0, 0)) := by
    decide
  obtain ⟨s, hs, hend⟩ := Option.map_eq_some_iff.1 hsome
  simp only [Prod.mk.injEq] at hend
  exact ⟨s, run_steps .start hs, hend⟩

end BtSniffer.TcpLimits
