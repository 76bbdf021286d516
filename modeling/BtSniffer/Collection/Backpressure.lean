import Mathlib.Data.List.Infix
import Mathlib.Tactic.Ring

/-!
# Sampling backpressure

Reference model of `src/collection/backpressure.rs`.

* Times and counts are the 64-bit integers of the source, `u64` sums are numbers below `2 ^ 64`.
* A log line is left out; `log` keeps its effect on the state.

## Results

* `restoreLevel_le_iff` — the level below which capacity comes back.
* `step_spec` — what one call does; `step_capacity`, `Inv.step_backlog` — to a cause of a pause.
* `Inv.run`, `run_resumes`, `run_pausedMs` — what a run keeps and counts.
* `hysteresis` — when the causes change, and what is counted; `clamped_pause` is an interval that is
  too long for the clock.
-/

set_option autoImplicit false

namespace BtSniffer.Collection

/-! ## The policy -/

/-- `Mode`. -/
inductive Mode where
  | freshness
  | capacity
  deriving DecidableEq, Repr

/-- `Backpressure`. -/
structure Backpressure where
  mode : Mode
  maxActive : Nat
  recentLimit : Nat
  capacity : Bool
  backlog : Bool
  storage : Bool
  recoverySince : Option Int64
  lastAt : Option Int64
  pausedMs : Nat
  resumes : Nat
  deriving DecidableEq, Repr

/-- `i64::saturating_sub`. -/
def saturatingSub (a b : Int64) : Int64 := .ofIntClamp (a.toInt - b.toInt)

/-- `u64::saturating_add`. -/
def saturatingAdd (a b : Nat) : Nat := min (a + b) (2 ^ 64 - 1)

/-- `usize::saturating_mul`. -/
def saturatingMul (a b : Nat) : Nat := min (a * b) (2 ^ 64 - 1)

/-- `Backpressure::new`. -/
def new (mode : Mode) (maxActive concurrency : Nat) : Backpressure where
  mode := mode
  maxActive := maxActive
  recentLimit := min maxActive (saturatingMul concurrency 4)
  capacity := false
  backlog := false
  storage := false
  recoverySince := none
  lastAt := none
  pausedMs := 0
  resumes := 0

namespace Backpressure

/-- `paused`. -/
def paused (b : Backpressure) : Bool := b.capacity || b.backlog || b.storage

/-- `account`. -/
def account (b : Backpressure) (now : Int64) : Backpressure :=
  { b with
    pausedMs := match b.lastAt with
      | some last =>
        if b.paused then saturatingAdd b.pausedMs (saturatingSub now last).toNatClampNeg
        else b.pausedMs
      | none => b.pausedMs
    lastAt := some now }

/-- The level below which capacity comes back. -/
def restoreLevel (maxActive : Nat) : Int64 := max (.ofNat maxActive * 8 / 10) 1

/-- The new `capacity` of `update`. -/
def atCapacity (b : Backpressure) (active : Int64) : Bool :=
  if b.capacity then decide (restoreLevel b.maxActive ≤ active)
  else decide (.ofNat b.maxActive ≤ active)

/-- What `update` makes of the recent jobs: the new `backlog` and `recovery_since`. -/
def readRecent (b : Backpressure) (now recent : Int64) : Bool × Option Int64 :=
  if !b.backlog then (decide (.ofNat b.recentLimit ≤ recent), b.recoverySince)
  else if recent ≤ .ofNat (b.recentLimit / 4) then
    let since := b.recoverySince.getD now
    if 30000 ≤ saturatingSub now since then (false, none) else (true, some since)
  else (true, none)

/-- The causes of a pause after `update`. -/
def decideCauses (b : Backpressure) (now active : Int64) (recent : Option Int64) (storage : Bool) :
    Backpressure :=
  let b := { b with storage := storage }
  let b := if storage then b else { b with capacity := b.atCapacity active }
  match b.mode, recent with
  | .freshness, some recent =>
    let (backlog, recoverySince) := b.readRecent now recent
    { b with backlog, recoverySince }
  | _, _ => b

/-- A pause that is over is counted. -/
def countResume (old : Bool) (b : Backpressure) : Backpressure :=
  if old && !b.paused then { b with resumes := b.resumes + 1 } else b

/-- `update`. -/
def update (b : Backpressure) (now active : Int64) (recent : Option Int64) (storage : Bool) :
    Bool × Backpressure :=
  let b := b.account now
  let old := b.paused
  let b := countResume old (b.decideCauses now active recent storage)
  (old != b.paused, b)

/-- `log`. -/
def log (b : Backpressure) (now : Int64) : Backpressure := b.account now

end Backpressure

/-! ## Runs -/

/-- A call of the coordinator. -/
inductive Call where
  | update (now active : Int64) (recent : Option Int64) (storage : Bool)
  | log (now : Int64)
  deriving DecidableEq, Repr

namespace Call

/-- The time of a call. -/
def now : Call → Int64
  | .update now _ _ _ => now
  | .log now => now

/-- The recent jobs that a call supplies. -/
def recent : Call → Option Int64
  | .update _ _ recent _ => recent
  | .log _ => none

end Call

namespace Backpressure

/-- One call. -/
def step (b : Backpressure) : Call → Backpressure
  | .update now active recent storage => (b.update now active recent storage).2
  | .log now => b.log now

/-- The state after some calls. -/
def run (b : Backpressure) (calls : List Call) : Backpressure := calls.foldl step b

/-- The changes from paused to running in a run. -/
def resumptions (b : Backpressure) : List Call → Nat
  | [] => 0
  | call :: rest =>
    (if b.paused = true ∧ (b.step call).paused = false then 1 else 0) +
      (b.step call).resumptions rest

/-- The length of the intervals between consecutive calls at whose start the sampling was paused. -/
def pausedTime (b : Backpressure) : List Call → Int
  | [] => 0
  | [_] => 0
  | call :: next :: rest =>
    (if (b.step call).paused then next.now.toInt - call.now.toInt else 0) +
      (b.step call).pausedTime (next :: rest)

end Backpressure

/-! ## Levels and differences -/

theorem saturatingSub_toInt (a b : Int64) :
    (saturatingSub a b).toInt = max (-2 ^ 63) (min (2 ^ 63 - 1) (a.toInt - b.toInt)) := by
  have hmin : Int64.minValue.toInt = -2 ^ 63 := by decide
  have hmax : Int64.maxValue.toInt = 2 ^ 63 - 1 := by decide
  unfold saturatingSub Int64.ofIntClamp
  split
  · rename_i hl
    split
    · rename_i hr
      rw [Int64.toInt_ofIntLE]
      omega
    · omega
  · omega

/-- The difference of two times that are in order and not too far apart. -/
theorem saturatingSub_toNat {a b : Int64} (hle : b ≤ a) (hnear : a.toInt - b.toInt < 2 ^ 63) :
    ((saturatingSub a b).toNatClampNeg : Int) = a.toInt - b.toInt := by
  rw [Int64.le_iff_toInt_le] at hle
  rw [← Int64.toNat_toInt, saturatingSub_toInt]
  omega

theorem ofNat_le_iff {n : Nat} (h : n < 2 ^ 63) (x : Int64) : .ofNat n ≤ x ↔ (n : Int) ≤ x.toInt := by
  rw [Int64.le_iff_toInt_le, Int64.toInt_ofNat_of_lt h]

theorem le_ofNat_iff {n : Nat} (h : n < 2 ^ 63) (x : Int64) : x ≤ .ofNat n ↔ x.toInt ≤ n := by
  rw [Int64.le_iff_toInt_le, Int64.toInt_ofNat_of_lt h]

/-- **Capacity comes back below 80 percent**, and below one job for small capacities. -/
theorem restoreLevel_le_iff {m : Nat} (h : 8 * m < 2 ^ 63) (x : Int64) :
    Backpressure.restoreLevel m ≤ x ↔ max 1 ((8 * m / 10 : Nat) : Int) ≤ x.toInt := by
  have hm : (Int64.ofNat m).toInt = m := Int64.toInt_ofNat_of_lt (by omega)
  have hmul : (Int64.ofNat m * 8).toInt = ((8 * m : Nat) : Int) := by
    rw [Int64.toInt_mul, hm, show (8 : Int64).toInt = 8 by decide, Int.bmod_eq_of_le]
    all_goals omega
  have hdiv : (Int64.ofNat m * 8 / 10).toInt = ((8 * m / 10 : Nat) : Int) := by
    rw [Int64.toInt_div_of_ne_right _ _ (by decide), hmul, show (10 : Int64).toInt = 10 by decide]
    rfl
  have hone : (1 : Int64).toInt = 1 := by decide
  unfold Backpressure.restoreLevel
  rw [show max (Int64.ofNat m * 8 / 10) 1 =
    if Int64.ofNat m * 8 / 10 ≤ 1 then 1 else Int64.ofNat m * 8 / 10 from rfl]
  split
  · rename_i hle
    rw [Int64.le_iff_toInt_le, hdiv, hone] at hle
    rw [Int64.le_iff_toInt_le, hone]
    omega
  · rename_i hle
    rw [Int64.le_iff_toInt_le, hdiv, hone] at hle
    rw [Int64.le_iff_toInt_le, hdiv]
    omega

/-! ## One call -/

namespace Backpressure

variable {b : Backpressure} {call : Call}

/-- The new `backlog` and `recovery_since` after a call. -/
def observed (b : Backpressure) (call : Call) : Bool × Option Int64 :=
  match b.mode, call.recent with
  | .freshness, some recent => b.readRecent call.now recent
  | _, _ => (b.backlog, b.recoverySince)

/-- What `update` decides after the accounting. -/
theorem decideCauses_eq (b : Backpressure) (now active : Int64) (recent : Option Int64)
    (storage : Bool) :
    (b.account now).decideCauses now active recent storage = { b.account now with
      capacity := if storage then b.capacity else b.atCapacity active
      backlog := (b.observed (.update now active recent storage)).1
      storage := storage
      recoverySince := (b.observed (.update now active recent storage)).2 } := by
  obtain ⟨mode, maxActive, recentLimit, capacity, backlog, old, since, last, pausedMs, resumes⟩ := b
  cases mode with
  | capacity => cases storage <;> rfl
  | freshness =>
    cases recent with
    | none => cases storage <;> rfl
    | some recent => cases storage <;> rfl

theorem countResume_eq (old : Bool) (b : Backpressure) : countResume old b =
    { b with resumes := b.resumes + if old = true ∧ b.paused = false then 1 else 0 } := by
  unfold countResume
  cases old <;> cases b.paused <;> rfl

/-- **One call**: capacity is decided without a storage pause, the backlog is read from the recent
jobs, and what was paused and runs is counted. -/
theorem step_spec (b : Backpressure) (call : Call) :
    ((b.step call).mode = b.mode ∧ (b.step call).maxActive = b.maxActive ∧
      (b.step call).recentLimit = b.recentLimit) ∧
    ((b.step call).capacity =
      match call with
      | .update _ active _ false => b.atCapacity active
      | _ => b.capacity) ∧
    ((b.step call).backlog = (b.observed call).1 ∧
      (b.step call).recoverySince = (b.observed call).2) ∧
    ((b.step call).lastAt = some call.now ∧
      (b.step call).pausedMs = (b.account call.now).pausedMs) ∧
    (b.step call).resumes =
      b.resumes + if b.paused = true ∧ (b.step call).paused = false then 1 else 0 := by
  cases call with
  | log now =>
    have hobserved : b.observed (.log now) = (b.backlog, b.recoverySince) := by
      unfold observed Call.recent
      cases b.mode <;> rfl
    have hpaused : (b.step (.log now)).paused = b.paused := rfl
    rw [hobserved, hpaused]
    refine ⟨⟨rfl, rfl, rfl⟩, rfl, ⟨rfl, rfl⟩, ⟨rfl, rfl⟩, ?_⟩
    rw [if_neg (fun h => by simp [h.1] at h)]
    rfl
  | update now active recent storage =>
    have hstep : b.step (.update now active recent storage) =
        countResume b.paused ((b.account now).decideCauses now active recent storage) := rfl
    rw [hstep, countResume_eq, decideCauses_eq]
    refine ⟨⟨rfl, rfl, rfl⟩, ?_, ⟨rfl, rfl⟩, ⟨rfl, rfl⟩, rfl⟩
    cases storage <;> rfl

/-- `update` tells whether the pause has changed. -/
theorem update_changed (b : Backpressure) (now active : Int64) (recent : Option Int64)
    (storage : Bool) :
    (b.update now active recent storage).1 =
      (b.paused != (b.step (.update now active recent storage)).paused) := rfl

/-! ## Capacity -/

/-- **Capacity pauses at the limit and comes back below 80 percent**, while storage does not pause. -/
theorem step_capacity (hfit : 8 * b.maxActive < 2 ^ 63) (call : Call) :
    (b.capacity = false → (b.step call).capacity = true →
      ∃ now active recent, call = .update now active recent false ∧
        (b.maxActive : Int) ≤ active.toInt) ∧
    (b.capacity = true → (b.step call).capacity = false →
      ∃ now active recent, call = .update now active recent false ∧
        active.toInt < max 1 ((8 * b.maxActive / 10 : Nat) : Int)) := by
  rw [(b.step_spec call).2.1]
  cases call with
  | log now => exact ⟨fun h h' => by simp [h] at h', fun h h' => by simp [h] at h'⟩
  | update now active recent storage =>
    cases storage with
    | true => exact ⟨fun h h' => by simp [h] at h', fun h h' => by simp [h] at h'⟩
    | false =>
      refine ⟨?_, ?_⟩
      · intro hold hnew
        refine ⟨now, active, recent, rfl, ?_⟩
        simp only [atCapacity, hold] at hnew
        exact (ofNat_le_iff (by omega) active).1 (of_decide_eq_true hnew)
      · intro hold hnew
        refine ⟨now, active, recent, rfl, ?_⟩
        simp only [atCapacity, hold, if_true, decide_eq_false_iff_not, restoreLevel_le_iff hfit] at hnew
        omega

/-! ## The backlog -/

/-- **What a call does to the backlog**: nothing without recent jobs; otherwise it begins at the high
level, it ends after 30 seconds at the low level, and its recovery is kept or broken off. -/
theorem observed_cases (b : Backpressure) (call : Call) :
    ((b.mode = .capacity ∨ call.recent = none) ∧
      b.observed call = (b.backlog, b.recoverySince)) ∨
    ∃ recent, b.mode = .freshness ∧ call.recent = some recent ∧
      ((b.backlog = false ∧
          b.observed call = (decide (.ofNat b.recentLimit ≤ recent), b.recoverySince)) ∨
        (b.backlog = true ∧ recent ≤ .ofNat (b.recentLimit / 4) ∧
          30000 ≤ saturatingSub call.now (b.recoverySince.getD call.now) ∧
          b.observed call = (false, none)) ∨
        (b.backlog = true ∧ recent ≤ .ofNat (b.recentLimit / 4) ∧
          b.observed call = (true, some (b.recoverySince.getD call.now))) ∨
        (b.backlog = true ∧ b.observed call = (true, none))) := by
  cases hmode : b.mode with
  | capacity => exact .inl ⟨.inl rfl, by unfold observed; rw [hmode]⟩
  | freshness =>
    cases hrecent : call.recent with
    | none => exact .inl ⟨.inr rfl, by unfold observed; rw [hmode, hrecent]⟩
    | some recent =>
      have hread : b.observed call =
          if !b.backlog then (decide (.ofNat b.recentLimit ≤ recent), b.recoverySince)
          else if recent ≤ .ofNat (b.recentLimit / 4) then
            if 30000 ≤ saturatingSub call.now (b.recoverySince.getD call.now) then (false, none)
            else (true, some (b.recoverySince.getD call.now))
          else (true, none) := by
        unfold observed
        rw [hmode, hrecent]
        rfl
      refine .inr ⟨recent, rfl, rfl, ?_⟩
      rw [hread]
      cases b.backlog with
      | false => exact .inl ⟨rfl, rfl⟩
      | true =>
        refine .inr ?_
        rw [if_neg (show ¬ (!true) = true by decide)]
        by_cases hlow : recent ≤ .ofNat (b.recentLimit / 4)
        · rw [if_pos hlow]
          by_cases hlong : 30000 ≤ saturatingSub call.now (b.recoverySince.getD call.now)
          · exact .inl ⟨rfl, hlow, hlong, if_pos hlong⟩
          · exact .inr (.inl ⟨rfl, hlow, if_neg hlong⟩)
        · exact .inr (.inr ⟨rfl, if_neg hlow⟩)

/-- A call supplies no more recent jobs than the low level, if it supplies any. -/
def Low (limit : Nat) (call : Call) : Prop :=
  ∀ recent, call.recent = some recent → recent.toInt ≤ (limit / 4 : Nat)

/-- Since a call at the time `since` that supplied recent jobs, all of them were few. -/
def LowSince (limit : Nat) (calls : List Call) (since : Int64) : Prop :=
  ∃ earlier first later, calls = earlier ++ first :: later ∧ first.now = since ∧
    first.recent.isSome = true ∧ ∀ call ∈ first :: later, Low limit call

theorem low_of_le {limit : Nat} (hlimit : limit < 2 ^ 63) {recent : Int64}
    (hrecent : call.recent = some recent) (hle : recent ≤ .ofNat (limit / 4)) : Low limit call := by
  intro v hv
  rw [hrecent] at hv
  cases hv
  exact (le_ofNat_iff (by omega) recent).1 hle

/-- One more call with few recent jobs. -/
theorem LowSince.append {limit : Nat} {calls : List Call} {since : Int64}
    (h : LowSince limit calls since) (hlow : Low limit call) :
    LowSince limit (calls ++ [call]) since := by
  obtain ⟨earlier, first, later, rfl, hnow, hrecent, hall⟩ := h
  refine ⟨earlier, first, later ++ [call], by simp, hnow, hrecent, ?_⟩
  intro c hc
  rcases List.mem_cons.1 hc with rfl | hc
  · exact hall c List.mem_cons_self
  · rcases List.mem_append.1 hc with hc | hc
    · exact hall c (List.mem_cons_of_mem first hc)
    · rw [List.mem_singleton.1 hc]
      exact hlow

/-- The invariant of a run of `calls`. -/
structure Inv (m : Mode) (active limit : Nat) (calls : List Call) (b : Backpressure) : Prop where
  mode : b.mode = m
  maxActive : b.maxActive = active
  recentLimit : b.recentLimit = limit
  off : m = .capacity → b.backlog = false
  idle : b.backlog = false → b.recoverySince = none
  since : ∀ since, b.recoverySince = some since → LowSince limit calls since

variable {m : Mode} {active limit : Nat} {calls : List Call}

/-- The recovery before a call at the low level, or the one that begins with it. -/
theorem Inv.lowSince (h : Inv m active limit calls b) (hlimit : limit < 2 ^ 63) {recent : Int64}
    (hrecent : call.recent = some recent) (hle : recent ≤ .ofNat (b.recentLimit / 4)) :
    LowSince limit (calls ++ [call]) (b.recoverySince.getD call.now) := by
  rw [h.recentLimit] at hle
  have hlow := low_of_le hlimit hrecent hle
  cases hsince : b.recoverySince with
  | none =>
    refine ⟨calls, call, [], rfl, rfl, by rw [hrecent]; rfl, ?_⟩
    intro c hc
    rw [List.mem_singleton.1 hc]
    exact hlow
  | some since => exact (h.since since hsince).append hlow

/-- **Every call keeps the invariant.** -/
theorem Inv.step (h : Inv m active limit calls b) (hlimit : limit < 2 ^ 63) (call : Call) :
    Inv m active limit (calls ++ [call]) (b.step call) := by
  obtain ⟨⟨hmode, hactive, hrecentLimit⟩, -, ⟨hbacklog, hsince⟩, -, -⟩ := b.step_spec call
  refine ⟨hmode.trans h.mode, hactive.trans h.maxActive, hrecentLimit.trans h.recentLimit, ?_, ?_, ?_⟩
  · intro hm
    rw [hbacklog]
    rcases b.observed_cases call with ⟨-, heq⟩ | ⟨recent, hfresh, -⟩
    · rw [heq]
      exact h.off hm
    · rw [h.mode, hm] at hfresh
      cases hfresh
  · rw [hbacklog, hsince]
    rcases b.observed_cases call with ⟨-, heq⟩ | ⟨recent, -, -, ⟨hold, heq⟩ | ⟨-, -, -, heq⟩ |
      ⟨-, -, heq⟩ | ⟨-, heq⟩⟩
    · rw [heq]
      exact h.idle
    · rw [heq]
      exact fun _ => h.idle hold
    · rw [heq]
      exact fun _ => rfl
    · rw [heq]
      exact fun hfalse => by cases hfalse
    · rw [heq]
      exact fun _ => rfl
  · intro since hsome
    rw [hsince] at hsome
    rcases b.observed_cases call with ⟨hnone, heq⟩ | ⟨recent, -, hrecent, ⟨hold, heq⟩ | ⟨-, -, -, heq⟩ |
      ⟨-, hle, heq⟩ | ⟨-, heq⟩⟩
    · rw [heq] at hsome
      rcases hnone with hm | hnone
      · rw [h.idle (h.off (h.mode ▸ hm))] at hsome
        cases hsome
      · refine (h.since since hsome).append ?_
        intro recent hrecent
        rw [hnone] at hrecent
        cases hrecent
    · rw [heq, h.idle hold] at hsome
      cases hsome
    · rw [heq] at hsome
      cases hsome
    · rw [heq] at hsome
      cases hsome
      exact h.lowSince hlimit hrecent hle
    · rw [heq] at hsome
      cases hsome

/-- **The backlog ends after 30 seconds of few recent jobs and begins at the high level.** -/
theorem Inv.step_backlog (h : Inv m active limit calls b) (hlimit : limit < 2 ^ 63) (call : Call) :
    (b.backlog = true → (b.step call).backlog = false →
      ∃ since, LowSince limit (calls ++ [call]) since ∧ since.toInt + 30000 ≤ call.now.toInt) ∧
    (b.backlog = false → (b.step call).backlog = true →
      ∃ recent, call.recent = some recent ∧ (limit : Int) ≤ recent.toInt) := by
  obtain ⟨-, -, ⟨hbacklog, -⟩, -, -⟩ := b.step_spec call
  rw [hbacklog]
  rcases b.observed_cases call with ⟨-, heq⟩ | ⟨recent, -, hrecent, ⟨hold, heq⟩ |
    ⟨hold, hle, hlong, -⟩ | ⟨hold, -, heq⟩ | ⟨hold, heq⟩⟩
  · rw [heq]
    exact ⟨fun h h' => by simp [h] at h', fun h h' => by simp [h] at h'⟩
  · refine ⟨fun h' => by simp [hold] at h', fun _ hnew => ⟨recent, hrecent, ?_⟩⟩
    rw [heq, h.recentLimit] at hnew
    exact (ofNat_le_iff hlimit recent).1 (of_decide_eq_true hnew)
  · refine ⟨fun _ _ => ⟨_, h.lowSince hlimit hrecent hle, ?_⟩, fun h' => by simp [hold] at h'⟩
    rw [Int64.le_iff_toInt_le, saturatingSub_toInt, show (30000 : Int64).toInt = 30000 by decide]
      at hlong
    omega
  · rw [heq]
    exact ⟨fun _ h' => (nomatch h'), fun h' => by simp [hold] at h'⟩
  · rw [heq]
    exact ⟨fun _ h' => (nomatch h'), fun h' => by simp [hold] at h'⟩

theorem inv_new (m : Mode) (active concurrency : Nat) :
    Inv m active (min active (saturatingMul concurrency 4)) [] (new m active concurrency) :=
  ⟨rfl, rfl, rfl, fun _ => rfl, fun _ => rfl, fun _ h => by cases h⟩

/-- **The invariant holds after every run.** -/
theorem Inv.run (hlimit : limit < 2 ^ 63) : ∀ (later : List Call) {calls : List Call}
    {b : Backpressure}, Inv m active limit calls b → Inv m active limit (calls ++ later) (b.run later)
  | [], calls, b, h => by
    rw [List.append_nil]
    exact h
  | call :: later, calls, b, h => by
    have hrest := Inv.run hlimit later (h.step hlimit call)
    rw [List.append_assoc] at hrest
    exact hrest

/-! ## What is counted -/

theorem run_resumes : ∀ (calls : List Call) (b : Backpressure),
    (b.run calls).resumes = b.resumes + b.resumptions calls
  | [], _ => rfl
  | call :: rest, b => by
    have hstep := (b.step_spec call).2.2.2.2
    calc ((b.step call).run rest).resumes = (b.step call).resumes + (b.step call).resumptions rest :=
          run_resumes rest (b.step call)
      _ = b.resumes + b.resumptions (call :: rest) := by
          rw [hstep, resumptions, Nat.add_assoc]

/-- The pauses that were counted fit into the time before the last call. -/
def Fits (b : Backpressure) (last : Int64) : Prop :=
  b.lastAt = some last ∧ (b.pausedMs : Int) ≤ last.toInt + 2 ^ 63

/-- A call counts the interval before it, if sampling was paused at its start. -/
theorem Fits.step {last : Int64} (h : Fits b last) (hle : last ≤ call.now)
    (hnear : call.now.toInt - last.toInt < 2 ^ 63) :
    Fits (b.step call) call.now ∧ ((b.step call).pausedMs : Int) =
      b.pausedMs + if b.paused then call.now.toInt - last.toInt else 0 := by
  obtain ⟨-, -, -, ⟨hlast, hms⟩, -⟩ := b.step_spec call
  have hsub := saturatingSub_toNat hle hnear
  have hfits := h.2
  have hnow := call.now.toInt_lt
  rw [Int64.le_iff_toInt_le] at hle
  have hcount : ((b.step call).pausedMs : Int) =
      b.pausedMs + if b.paused then call.now.toInt - last.toInt else 0 := by
    rw [hms]
    unfold account saturatingAdd
    simp only [h.1]
    cases b.paused with
    | true =>
      simp only [if_true]
      omega
    | false => simp
  refine ⟨⟨hlast, ?_⟩, hcount⟩
  rw [hcount]
  split <;> omega

theorem fits_first (hlast : b.lastAt = none) (hms : b.pausedMs = 0) (call : Call) :
    Fits (b.step call) call.now ∧ (b.step call).pausedMs = 0 := by
  obtain ⟨-, -, -, ⟨hnow, hstep⟩, -⟩ := b.step_spec call
  have hzero : (b.step call).pausedMs = 0 := by
    rw [hstep]
    unfold account
    simp only [hlast, hms]
  have hmin := call.now.le_toInt
  refine ⟨⟨hnow, ?_⟩, hzero⟩
  rw [hzero]
  omega

/-- Calls in the order of their times, none of them too long after the one before. -/
def Near (first second : Call) : Prop :=
  first.now ≤ second.now ∧ second.now.toInt - first.now.toInt < 2 ^ 63

/-- **The pauses of a run are summed up.** -/
theorem run_pausedMs : ∀ (rest : List Call) (call : Call) (b : Backpressure),
    Fits (b.step call) call.now → (call :: rest).IsChain Near →
    (((b.step call).run rest).pausedMs : Int) =
      (b.step call).pausedMs + b.pausedTime (call :: rest)
  | [], call, b, _, _ => by
    rw [pausedTime, Int.add_zero]
    rfl
  | next :: rest, call, b, hfits, hchain => by
    obtain ⟨⟨hle, hnear⟩, hrest⟩ := List.isChain_cons_cons.1 hchain
    obtain ⟨hfits', hcount⟩ := hfits.step hle hnear
    calc ((((b.step call).step next).run rest).pausedMs : Int)
        = ((b.step call).step next).pausedMs + (b.step call).pausedTime (next :: rest) :=
          run_pausedMs rest next (b.step call) hfits' hrest
      _ = (b.step call).pausedMs + b.pausedTime (call :: next :: rest) := by
          rw [hcount, pausedTime, Int.add_assoc]

/-! ## Hysteresis -/

/-- What a call after the calls `before` may change, and what `update` tells about it. -/
structure Hysteresis (m : Mode) (active limit : Nat) (before : List Call) (b : Backpressure)
    (call : Call) : Prop where
  capacity_begins : b.capacity = false → (b.step call).capacity = true →
    ∃ now jobs recent, call = .update now jobs recent false ∧ (active : Int) ≤ jobs.toInt
  capacity_ends : b.capacity = true → (b.step call).capacity = false →
    ∃ now jobs recent, call = .update now jobs recent false ∧
      jobs.toInt < max 1 ((8 * active / 10 : Nat) : Int)
  capacity_kept : ∀ now jobs recent, call = .update now jobs recent true →
    (b.step call).capacity = b.capacity
  backlog_ends : b.backlog = true → (b.step call).backlog = false →
    ∃ since, LowSince limit (before ++ [call]) since ∧ since.toInt + 30000 ≤ call.now.toInt
  backlog_begins : b.backlog = false → (b.step call).backlog = true →
    ∃ recent, call.recent = some recent ∧ (limit : Int) ≤ recent.toInt
  backlog_off : m = .capacity → b.backlog = false ∧ (b.step call).backlog = false
  changed : ∀ now jobs recent storage, call = .update now jobs recent storage →
    ((b.update now jobs recent storage).1 = true ↔ b.paused ≠ (b.step call).paused)

/-- The rules hold at every call that the invariant admits. -/
theorem Inv.rules (h : Inv m active limit calls b) (hfit : 8 * active < 2 ^ 63)
    (hlimit : limit < 2 ^ 63) (call : Call) : Hysteresis m active limit calls b call := by
  have hactive := h.maxActive
  obtain ⟨hbegins, hends⟩ := step_capacity (hactive ▸ hfit) call
  rw [hactive] at hbegins hends
  obtain ⟨hlow, hhigh⟩ := h.step_backlog hlimit call
  refine ⟨hbegins, hends, ?_, hlow, hhigh, ?_, ?_⟩
  · intro now jobs recent hcall
    rw [(b.step_spec call).2.1, hcall]
  · intro hm
    exact ⟨h.off hm, (h.step hlimit call).off hm⟩
  · intro now jobs recent storage hcall
    rw [update_changed, ← hcall, bne_iff_ne]

/-- **Hysteresis and accounting**: in every run each call keeps to the rules, every end of a pause is
counted, and so is the time for which the sampling was paused between calls whose difference the
clock can hold. -/
theorem hysteresis (m : Mode) (active concurrency : Nat) (hfit : 8 * active < 2 ^ 63)
    (calls : List Call) :
    (∀ before call after, calls = before ++ call :: after →
      Hysteresis m active (min active (saturatingMul concurrency 4)) before
        ((new m active concurrency).run before) call) ∧
    ((new m active concurrency).run calls).resumes = (new m active concurrency).resumptions calls ∧
    (calls.IsChain Near → (((new m active concurrency).run calls).pausedMs : Int) =
      (new m active concurrency).pausedTime calls) := by
  have hlimit : min active (saturatingMul concurrency 4) < 2 ^ 63 := by omega
  refine ⟨?_, ?_, ?_⟩
  · intro before call after _
    exact (Inv.run hlimit before (inv_new m active concurrency)).rules hfit hlimit call
  · rw [run_resumes]
    exact Nat.zero_add _
  · intro hchain
    cases calls with
    | nil => rfl
    | cons call rest =>
      obtain ⟨hfits, hzero⟩ := fits_first (b := new m active concurrency) rfl rfl call
      have hsum := run_pausedMs rest call _ hfits hchain
      rw [hzero, Int.natCast_zero, Int.zero_add] at hsum
      exact hsum

/-- Two jobs of two pause the sampling for four seconds. -/
theorem hysteresis_two :
    ((new .freshness 2 1).run [.update 1000 2 (some 0) false, .log 2000,
      .update 5000 0 none false]).resumes = 1 ∧
    ((new .freshness 2 1).run [.update 1000 2 (some 0) false, .log 2000,
      .update 5000 0 none false]).pausedMs = 4000 := by
  obtain ⟨-, hresumes, hpaused⟩ := hysteresis .freshness 2 1 (by decide)
    [.update 1000 2 (some 0) false, .log 2000, .update 5000 0 none false]
  refine ⟨hresumes.trans (by decide), ?_⟩
  have hsum := hpaused
    (.cons_cons ⟨by decide, by decide⟩ (.cons_cons ⟨by decide, by decide⟩ (.singleton _)))
  rw [show (new .freshness 2 1).pausedTime [.update 1000 2 (some 0) false, .log 2000,
    .update 5000 0 none false] = 4000 by decide] at hsum
  exact Int.ofNat.inj hsum

/-- A pause over the whole range of the clock counts as half of it. -/
theorem clamped_pause :
    let calls : List Call := [.update Int64.minValue 0 none true, .log Int64.maxValue]
    (calls.IsChain fun first second => first.now ≤ second.now) ∧
    ((new .freshness 1 1).run calls).pausedMs = 2 ^ 63 - 1 ∧
    (new .freshness 1 1).pausedTime calls = 2 ^ 64 - 1 :=
  ⟨.cons_cons (by decide) (.singleton _), by decide, by decide⟩

end Backpressure

end BtSniffer.Collection
