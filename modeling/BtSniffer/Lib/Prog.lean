import Mathlib.Tactic.Common

/-!
# Transaction programs

A `Prog σ ε S α` is the body of a transaction over a database of type `σ`: it reads the current
state, executes statements of type `S` (each reports the number of rows it changed) and either
returns a value or fails with an error `ε`.  The meaning of a statement is a parameter
`step : S → σ → Except ε (Nat × σ)`.

* `run` — the result and the final state of a program, or the first error;
* `trace` — the states after each executed statement;
* `transact` — a transaction: commit on success, roll back on error.

Rules: `run_invariant` and `trace_invariant` lift a property that the statements of a program
preserve to the program and to every intermediate state; `run_rel` does the same for a reflexive
and transitive relation between the states before and after.  `Uses P p` says that every statement
`p` can execute satisfies `P`, whatever the program reads.
-/

set_option autoImplicit false

namespace Relational

/-- Transaction bodies over states `σ`, errors `ε` and statements `S`. -/
inductive Prog (σ ε S α : Type) : Type 1 where
  | pure (a : α)
  | fail (e : ε)
  | read {β : Type} (q : σ → β) (k : β → Prog σ ε S α)
  | exec (s : S) (k : Nat → Prog σ ε S α)

namespace Prog

variable {σ ε S α β : Type}

/-- Sequencing. -/
def bind : Prog σ ε S α → (α → Prog σ ε S β) → Prog σ ε S β
  | .pure a, f => f a
  | .fail e, _ => .fail e
  | .read q k, f => .read q (fun b => (k b).bind f)
  | .exec s k, f => .exec s (fun n => (k n).bind f)

instance : Monad (Prog σ ε S) where
  pure := .pure
  bind := bind

/-- Read a value from the current state. -/
def query (q : σ → α) : Prog σ ε S α := .read q .pure

/-- Execute a statement and report the number of changed rows. -/
def execute (s : S) : Prog σ ε S Nat := .exec s .pure

/-- Read a value that may be an error of the query itself. -/
def queryOrFail (q : σ → Except ε α) : Prog σ ε S α :=
  .read q (fun r => match r with
    | .ok a => .pure a
    | .error e => .fail e)

/-! ## Meaning -/

variable (step : S → σ → Except ε (Nat × σ))

/-- Result and final state, or the first error. -/
def run : Prog σ ε S α → σ → Except ε (α × σ)
  | .pure a, s => .ok (a, s)
  | .fail e, _ => .error e
  | .read q k, s => (k (q s)).run s
  | .exec c k, s => match step c s with
    | .ok (n, s') => (k n).run s'
    | .error e => .error e

/-- The states after each executed statement, in order. -/
def trace : Prog σ ε S α → σ → List σ
  | .pure _, _ => []
  | .fail _, _ => []
  | .read q k, s => (k (q s)).trace s
  | .exec c k, s => match step c s with
    | .ok (n, s') => s' :: (k n).trace s'
    | .error _ => []

/-- A transaction: commit the final state, or roll back to the initial one. -/
def transact (p : Prog σ ε S α) (s : σ) : Except ε α × σ :=
  match p.run step s with
  | .ok (a, s') => (.ok a, s')
  | .error e => (.error e, s)

@[simp] theorem run_pure (a : α) (s : σ) :
    (Pure.pure a : Prog σ ε S α).run step s = .ok (a, s) := rfl

@[simp] theorem run_fail (e : ε) (s : σ) : (.fail e : Prog σ ε S α).run step s = .error e := rfl

@[simp] theorem run_query (q : σ → α) (s : σ) :
    (query q : Prog σ ε S α).run step s = .ok (q s, s) := rfl

@[simp] theorem run_execute (c : S) (s : σ) :
    (execute c : Prog σ ε S Nat).run step s = step c s := by
  unfold execute run
  cases step c s with
  | ok r => rfl
  | error e => rfl

@[simp] theorem run_queryOrFail (q : σ → Except ε α) (s : σ) :
    (queryOrFail q : Prog σ ε S α).run step s = (q s).map (fun a => (a, s)) := by
  unfold queryOrFail run
  cases q s with
  | ok r => rfl
  | error e => rfl

theorem run_bind' (p : Prog σ ε S α) (f : α → Prog σ ε S β) (s : σ) :
    (p.bind f).run step s =
      match p.run step s with
      | .ok (a, s') => (f a).run step s'
      | .error e => .error e := by
  induction p generalizing s with
  | pure a => rfl
  | fail e => rfl
  | read q k ih => exact ih (q s) s
  | exec c k ih =>
    simp only [bind, run]
    cases step c s with
    | ok r => exact ih r.1 r.2
    | error e => rfl

/-- A sequence runs its parts one after the other. -/
@[simp] theorem run_bind (p : Prog σ ε S α) (f : α → Prog σ ε S β) (s : σ) :
    (p >>= f).run step s =
      match p.run step s with
      | .ok (a, s') => (f a).run step s'
      | .error e => .error e :=
  run_bind' step p f s

variable {step}

/-- A sequence that succeeds: both parts succeed. -/
theorem run_bind_ok {p : Prog σ ε S α} {f : α → Prog σ ε S β} {s : σ} {r : β × σ}
    (h : (p >>= f).run step s = .ok r) :
    ∃ a s', p.run step s = .ok (a, s') ∧ (f a).run step s' = .ok r := by
  rw [run_bind] at h
  split at h
  · rename_i a s' hp
    exact ⟨a, s', hp, h⟩
  · cases h

/-- Running a sequence whose first part is known to succeed. -/
theorem run_bind_of_ok {p : Prog σ ε S α} {f : α → Prog σ ε S β} {s s' : σ} {a : α}
    (h : p.run step s = .ok (a, s')) : (p >>= f).run step s = (f a).run step s' := by
  rw [run_bind, h]

theorem run_bind_of_error {p : Prog σ ε S α} {f : α → Prog σ ε S β} {s : σ} {e : ε}
    (h : p.run step s = .error e) : (p >>= f).run step s = .error e := by
  rw [run_bind, h]

theorem run_bind_assoc {γ : Type} (p : Prog σ ε S α) (f : α → Prog σ ε S β)
    (g : β → Prog σ ε S γ) (s : σ) :
    (p >>= f >>= g).run step s = (p >>= fun a => f a >>= g).run step s := by
  rw [run_bind, run_bind, run_bind]
  cases p.run step s with
  | ok r => exact (run_bind step (f r.1) g r.2).symm
  | error e => rfl

/-- Running a statement that is known to succeed. -/
theorem run_execute_of_ok {c : S} {f : Nat → Prog σ ε S β} {s s' : σ} {n : Nat}
    (h : step c s = .ok (n, s')) : (execute c >>= f).run step s = (f n).run step s' :=
  run_bind_of_ok (by rw [run_execute, h])

/-- **An error rolls back.** -/
theorem transact_error {p : Prog σ ε S α} {s : σ} {e : ε}
    (h : (p.transact step s).1 = .error e) : (p.transact step s).2 = s := by
  unfold transact at h ⊢
  split
  · rename_i hr; rw [hr] at h; cases h
  · rfl

theorem transact_ok {p : Prog σ ε S α} {s : σ} {a : α}
    (h : (p.transact step s).1 = .ok a) : p.run step s = .ok (a, (p.transact step s).2) := by
  unfold transact at h ⊢
  split
  · rename_i b s' hr; rw [hr] at h; cases h; exact hr
  · rename_i hr; rw [hr] at h; cases h

/-- A transaction ends in the state of its program or where it started. -/
theorem transact_keeps {p : Prog σ ε S α} {s : σ} {I : σ → Prop} (hs : I s)
    (h : ∀ a s', p.run step s = .ok (a, s') → I s') : I (p.transact step s).2 := by
  unfold transact
  split
  · rename_i a s' hr
    exact h a s' hr
  · exact hs

/-! ## Statements of a program -/

/-- Every statement the program can execute satisfies `P`. -/
def Uses (P : S → Prop) : Prog σ ε S α → Prop
  | .pure _ => True
  | .fail _ => True
  | .read _ k => ∀ b, (k b).Uses P
  | .exec c k => P c ∧ ∀ n, (k n).Uses P

theorem Uses.bind {P : S → Prop} {p : Prog σ ε S α} {f : α → Prog σ ε S β} (hp : p.Uses P)
    (hf : ∀ a, (f a).Uses P) : (p >>= f).Uses P := by
  change (p.bind f).Uses P
  induction p with
  | pure a => exact hf a
  | fail e => trivial
  | read q k ih => exact fun b => ih b (hp b)
  | exec c k ih => exact ⟨hp.1, fun n => ih n (hp.2 n)⟩

theorem Uses.mono {P Q : S → Prop} (hPQ : ∀ c, P c → Q c) {p : Prog σ ε S α} (hp : p.Uses P) :
    p.Uses Q := by
  induction p with
  | pure a => trivial
  | fail e => trivial
  | read q k ih => exact fun b => ih b (hp b)
  | exec c k ih => exact ⟨hPQ c hp.1, fun n => ih n (hp.2 n)⟩

theorem uses_pure {P : S → Prop} (a : α) : (Pure.pure a : Prog σ ε S α).Uses P := trivial

theorem uses_fail {P : S → Prop} (e : ε) : (.fail e : Prog σ ε S α).Uses P := trivial

theorem uses_query {P : S → Prop} (q : σ → α) : (query q : Prog σ ε S α).Uses P :=
  fun _ => trivial

theorem uses_queryOrFail {P : S → Prop} (q : σ → Except ε α) :
    (queryOrFail q : Prog σ ε S α).Uses P := by
  intro r
  cases r <;> trivial

theorem uses_execute {P : S → Prop} {c : S} (h : P c) : (execute c : Prog σ ε S Nat).Uses P :=
  ⟨h, fun _ => trivial⟩

theorem uses_true (p : Prog σ ε S α) : p.Uses (fun _ => True) := by
  induction p with
  | pure a => trivial
  | fail e => trivial
  | read q k ih => exact fun b => ih b
  | exec c k ih => exact ⟨trivial, fun n => ih n⟩

/-! ## Invariants and relations -/

variable {P : S → Prop}

/-- **Relation rule**: what every statement guarantees between the states before and after, a
program guarantees, if the guarantee is reflexive and transitive. -/
theorem run_rel {R : σ → σ → Prop} (hrefl : ∀ s, R s s) (htrans : ∀ a b c, R a b → R b c → R a c)
    (hstep : ∀ c s n s', P c → step c s = .ok (n, s') → R s s') {p : Prog σ ε S α}
    (hp : p.Uses P) {s s' : σ} {a : α} (h : p.run step s = .ok (a, s')) : R s s' := by
  induction p generalizing s with
  | pure b => cases h; exact hrefl _
  | fail e => cases h
  | read q k ih => exact ih (q s) (hp (q s)) h
  | exec c k ih =>
    simp only [run] at h
    split at h
    · rename_i n t ht
      exact htrans _ _ _ (hstep c s n t hp.1 ht) (ih n (hp.2 n) h)
    · cases h

/-- **Invariant rule** for the final state. -/
theorem run_invariant {I : σ → Prop}
    (hstep : ∀ c s n s', P c → I s → step c s = .ok (n, s') → I s') {p : Prog σ ε S α}
    (hp : p.Uses P) {s s' : σ} {a : α} (hs : I s) (h : p.run step s = .ok (a, s')) : I s' :=
  run_rel (R := fun s s' => I s → I s') (fun _ h => h) (fun _ _ _ f g h => g (f h))
    (fun c s n s' hc ht hi => hstep c s n s' hc hi ht) hp h hs

/-- **Invariant rule** for every state a program goes through. -/
theorem trace_invariant {I : σ → Prop}
    (hstep : ∀ c s n s', P c → I s → step c s = .ok (n, s') → I s') {p : Prog σ ε S α}
    (hp : p.Uses P) {s : σ} (hs : I s) : ∀ t ∈ p.trace step s, I t := by
  induction p generalizing s with
  | pure b => intro t ht; cases ht
  | fail e => intro t ht; cases ht
  | read q k ih => exact ih (q s) (hp (q s)) hs
  | exec c k ih =>
    intro t ht
    simp only [trace] at ht
    split at ht
    · rename_i n u hu
      have hi := hstep c s n u hp.1 hs hu
      rcases List.mem_cons.1 ht with rfl | ht
      · exact hi
      · exact ih n (hp.2 n) hi t ht
    · cases ht

end Prog

end Relational
