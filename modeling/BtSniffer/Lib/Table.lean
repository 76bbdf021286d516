import Mathlib.Data.List.Sort
import Mathlib.Order.Defs.LinearOrder
import Mathlib.Data.List.Nodup
import Mathlib.Data.List.Perm.Subperm
import Mathlib.Tactic.Ring

/-!
# Keyed tables

A `Table ρ key` is a list of rows whose primary keys are pairwise distinct; the distinctness is a
field, so a table with a repeated key cannot be built.  The operations are the ones SQL statements
are made of:

* `get?`, `any`, `count` — look-up by key, `EXISTS`, `count(*)`;
* `insertNew` — `INSERT … ON CONFLICT (key) DO NOTHING`;
* `upsert` — `INSERT … ON CONFLICT (key) DO UPDATE`;
* `update`, `delete` — `UPDATE … WHERE`, `DELETE … WHERE`, for updates that leave the key alone;
* `select` — `SELECT … WHERE … ORDER BY … LIMIT`.

Each operation comes with the lemmas that say what it does to `get?`, to membership and to `count`.
-/

set_option autoImplicit false

namespace Relational

/-- Rows with pairwise distinct primary keys. -/
structure Table (ρ : Type) {κ : Type} (key : ρ → κ) where
  rows : List ρ
  nodup : (rows.map key).Nodup

namespace Table

variable {ρ κ : Type} {key : ρ → κ}

theorem ext {t u : Table ρ key} (h : t.rows = u.rows) : t = u := by
  cases t; cases u; cases h; rfl

instance [DecidableEq ρ] : DecidableEq (Table ρ key) := fun t u =>
  decidable_of_iff (t.rows = u.rows) ⟨ext, fun h => by rw [h]⟩

/-- The table without rows. -/
def empty : Table ρ key := ⟨[], List.nodup_nil⟩

@[simp] theorem rows_empty : (empty : Table ρ key).rows = [] := rfl

/-- A table with the same keys and another row type, as `ALTER TABLE … ADD COLUMN` produces. -/
def mapRows {ρ' : Type} {key' : ρ' → κ} (t : Table ρ key) (f : ρ → ρ')
    (hf : ∀ r, key' (f r) = key r) : Table ρ' key' where
  rows := t.rows.map f
  nodup := by
    have h : (t.rows.map f).map key' = t.rows.map key := by
      rw [List.map_map]
      exact List.map_congr_left (fun r _ => hf r)
    rw [h]
    exact t.nodup

/-- `EXISTS (SELECT 1 … WHERE p)`. -/
def any (t : Table ρ key) (p : ρ → Bool) : Bool := t.rows.any p

/-- `SELECT count(*) … WHERE p`. -/
def count (t : Table ρ key) (p : ρ → Bool) : Nat := t.rows.countP p

theorem any_eq_true {t : Table ρ key} {p : ρ → Bool} : t.any p = true ↔ ∃ r ∈ t.rows, p r = true :=
  List.any_eq_true

theorem any_eq_false {t : Table ρ key} {p : ρ → Bool} :
    t.any p = false ↔ ∀ r ∈ t.rows, p r = false := by
  simp [any]

/-- `UPDATE … SET f WHERE p`; the assignment leaves the primary key alone. -/
def update (t : Table ρ key) (p : ρ → Bool) (f : ρ → ρ) (hf : ∀ r, key (f r) = key r) :
    Table ρ key where
  rows := t.rows.map (fun r => if p r then f r else r)
  nodup := by
    have h : (t.rows.map (fun r => if p r then f r else r)).map key = t.rows.map key := by
      rw [List.map_map]
      refine List.map_congr_left (fun r _ => ?_)
      simp only [Function.comp]
      split
      · exact hf r
      · rfl
    rw [h]
    exact t.nodup

/-- `DELETE … WHERE p`. -/
def delete (t : Table ρ key) (p : ρ → Bool) : Table ρ key where
  rows := t.rows.filter (fun r => !p r)
  nodup := t.nodup.sublist (List.filter_sublist.map key)

@[simp] theorem rows_update (t : Table ρ key) (p : ρ → Bool) (f : ρ → ρ)
    (hf : ∀ r, key (f r) = key r) :
    (t.update p f hf).rows = t.rows.map (fun r => if p r then f r else r) := rfl

@[simp] theorem rows_delete (t : Table ρ key) (p : ρ → Bool) :
    (t.delete p).rows = t.rows.filter (fun r => !p r) := rfl

theorem mem_update {t : Table ρ key} {p : ρ → Bool} {f : ρ → ρ} {hf : ∀ r, key (f r) = key r}
    {x : ρ} : x ∈ (t.update p f hf).rows ↔ ∃ r ∈ t.rows, (if p r then f r else r) = x :=
  List.mem_map

theorem mem_delete {t : Table ρ key} {p : ρ → Bool} {x : ρ} :
    x ∈ (t.delete p).rows ↔ x ∈ t.rows ∧ p x = false := by
  simp [List.mem_filter]

/-- An update whose condition holds of no row changes nothing. -/
theorem update_eq_self {t : Table ρ key} {p : ρ → Bool} {f : ρ → ρ} {hf : ∀ r, key (f r) = key r}
    (h : ∀ r ∈ t.rows, p r = true → f r = r) : t.update p f hf = t := by
  refine ext ?_
  rw [rows_update]
  conv_rhs => rw [← List.map_id t.rows]
  refine List.map_congr_left (fun r hr => ?_)
  split
  · rename_i hp; exact h r hr hp
  · rfl

theorem delete_eq_self {t : Table ρ key} {p : ρ → Bool} (h : ∀ r ∈ t.rows, p r = false) :
    t.delete p = t := by
  refine ext ?_
  rw [rows_delete, List.filter_eq_self]
  exact fun r hr => by simp [h r hr]

/-- Two rows of a table with the same key are the same row. -/
theorem eq_of_key {t : Table ρ key} {x y : ρ} (hx : x ∈ t.rows) (hy : y ∈ t.rows)
    (h : key x = key y) : x = y :=
  List.inj_on_of_nodup_map t.nodup hx hy h

theorem nodup_rows (t : Table ρ key) : t.rows.Nodup := t.nodup.of_map _

/-! ## Counting -/

/-- Matching rows that all lie in a list are no more than it is long. -/
theorem count_le_length {t : Table ρ key} {p : ρ → Bool} {l : List ρ}
    (h : ∀ r ∈ t.rows, p r = true → r ∈ l) : t.count p ≤ l.length := by
  rw [count, List.countP_eq_length_filter]
  refine (List.Nodup.subperm (t.nodup_rows.filter p) ?_).length_le
  intro r hr
  obtain ⟨hmem, hp⟩ := List.mem_filter.1 hr
  exact h r hmem hp

theorem count_delete_le (t : Table ρ key) (p q : ρ → Bool) : (t.delete p).count q ≤ t.count q :=
  List.filter_sublist.countP_le

/-- An update that moves rows from outside `q` into `q` adds the rows it matches. -/
theorem count_update_enter {t : Table ρ key} {p q : ρ → Bool} {f : ρ → ρ}
    (hf : ∀ r, key (f r) = key r) (h : ∀ r, p r = true → q r = false ∧ q (f r) = true) :
    (t.update p f hf).count q = t.count q + t.count p := by
  unfold count update
  simp only
  induction t.rows with
  | nil => rfl
  | cons r l ih =>
    simp only [List.map_cons, List.countP_cons, ih]
    by_cases hp : p r = true
    · obtain ⟨h1, h2⟩ := h r hp
      simp [hp, h1, h2]; omega
    · simp [hp]; omega

/-- An update that does not move rows across `q` keeps the count of `q`. -/
theorem count_update_eq {t : Table ρ key} {p q : ρ → Bool} {f : ρ → ρ}
    (hf : ∀ r, key (f r) = key r) (h : ∀ r ∈ t.rows, p r = true → q (f r) = q r) :
    (t.update p f hf).count q = t.count q := by
  unfold count
  rw [rows_update, List.countP_map]
  refine List.countP_congr (fun r hr => ?_)
  simp only [Function.comp]
  split
  · rename_i hp; rw [h r hr hp]
  · rfl

theorem count_pos {t : Table ρ key} {p : ρ → Bool} : 0 < t.count p ↔ ∃ r ∈ t.rows, p r = true :=
  List.countP_pos_iff

theorem count_eq_zero {t : Table ρ key} {p : ρ → Bool} :
    t.count p = 0 ↔ ∀ r ∈ t.rows, p r = false := by
  simp [count, List.countP_eq_zero]

section DecidableKey

variable [DecidableEq κ]

/-- Look-up by primary key. -/
def get? (t : Table ρ key) (k : κ) : Option ρ := t.rows.find? (fun r => decide (key r = k))

theorem get?_eq_some {t : Table ρ key} {k : κ} {r : ρ} :
    t.get? k = some r ↔ r ∈ t.rows ∧ key r = k := by
  constructor
  · intro h
    exact ⟨List.mem_of_find?_eq_some h, by simpa using List.find?_some h⟩
  · rintro ⟨hr, hk⟩
    cases h : t.get? k with
    | none =>
      have := List.find?_eq_none.1 h r hr
      simp [hk] at this
    | some x =>
      have hx : x ∈ t.rows := List.mem_of_find?_eq_some h
      have hkx : key x = k := by simpa using List.find?_some h
      rw [eq_of_key hx hr (hkx.trans hk.symm)]

theorem get?_eq_none {t : Table ρ key} {k : κ} : t.get? k = none ↔ ∀ r ∈ t.rows, key r ≠ k := by
  simp [get?]

@[simp] theorem get?_empty (k : κ) : (empty : Table ρ key).get? k = none := rfl

theorem get?_key {t : Table ρ key} {r : ρ} (h : r ∈ t.rows) : t.get? (key r) = some r :=
  get?_eq_some.2 ⟨h, rfl⟩

/-- A table is determined by its rows; an update acts on look-ups row by row. -/
@[simp] theorem get?_update (t : Table ρ key) (p : ρ → Bool) (f : ρ → ρ)
    (hf : ∀ r, key (f r) = key r) (k : κ) :
    (t.update p f hf).get? k = (t.get? k).map (fun r => if p r then f r else r) := by
  have hkey : ∀ r, key (if p r then f r else r) = key r := by
    intro r; split
    · exact hf r
    · rfl
  cases h : t.get? k with
  | none =>
    rw [Option.map_none, get?_eq_none]
    intro x hx
    obtain ⟨r, hr, rfl⟩ := mem_update.1 hx
    rw [hkey]
    exact get?_eq_none.1 h r hr
  | some r =>
    obtain ⟨hr, hk⟩ := get?_eq_some.1 h
    rw [Option.map_some, get?_eq_some]
    exact ⟨mem_update.2 ⟨r, hr, rfl⟩, by rw [hkey, hk]⟩

@[simp] theorem get?_delete (t : Table ρ key) (p : ρ → Bool) (k : κ) :
    (t.delete p).get? k = (t.get? k).filter (fun r => !p r) := by
  cases h : t.get? k with
  | none =>
    rw [Option.filter_none, get?_eq_none]
    intro x hx
    exact get?_eq_none.1 h x (mem_delete.1 hx).1
  | some r =>
    obtain ⟨hr, hk⟩ := get?_eq_some.1 h
    rw [Option.filter_some]
    split
    · rename_i hp
      exact get?_eq_some.2 ⟨mem_delete.2 ⟨hr, by simpa using hp⟩, hk⟩
    · rename_i hp
      rw [get?_eq_none]
      intro x hx hxk
      obtain ⟨hxr, hpx⟩ := mem_delete.1 hx
      rw [eq_of_key hxr hr (hxk.trans hk.symm)] at hpx
      simp [hpx] at hp

/-- Around a row found by key, no other row has that key. -/
theorem split_of_get? {t : Table ρ key} {k : κ} {c : ρ} (h : t.get? k = some c) :
    ∃ l r, t.rows = l ++ c :: r ∧ (∀ x ∈ l, key x ≠ k) ∧ ∀ x ∈ r, key x ≠ k := by
  obtain ⟨hc, hk⟩ := get?_eq_some.1 h
  obtain ⟨l, r, hs⟩ := List.append_of_mem hc
  have hnd := t.nodup
  rw [hs, List.map_append, List.map_cons, List.nodup_middle, List.nodup_cons, hk,
    List.mem_append] at hnd
  refine ⟨l, r, hs, ?_, ?_⟩
  · intro x hx he
    exact hnd.1 (.inl (List.mem_map.2 ⟨x, hx, he⟩))
  · intro x hx he
    exact hnd.1 (.inr (List.mem_map.2 ⟨x, hx, he⟩))

/-- Where the row found stands, and what is left without it. -/
theorem split_delete_key {t : Table ρ key} {k : κ} {c : ρ} (h : t.get? k = some c) :
    ∃ l r, t.rows = l ++ c :: r ∧ (∀ x ∈ l, key x ≠ k) ∧ (∀ x ∈ r, key x ≠ k) ∧
      (t.delete (fun r => decide (key r = k))).rows = l ++ r := by
  obtain ⟨l, r, hs, hl, hr⟩ := split_of_get? h
  have hk := (get?_eq_some.1 h).2
  refine ⟨l, r, hs, hl, hr, ?_⟩
  rw [rows_delete, hs, List.filter_append, List.filter_cons_of_neg (by simp [hk])]
  rw [List.filter_eq_self.2 (by simpa using hl), List.filter_eq_self.2 (by simpa using hr)]

/-- Deleting by key removes exactly the row found. -/
theorem perm_delete_key {t : Table ρ key} {k : κ} {c : ρ} (h : t.get? k = some c) :
    t.rows.Perm (c :: (t.delete (fun r => decide (key r = k))).rows) := by
  obtain ⟨l, r, hs, -, -, hdel⟩ := split_delete_key h
  rw [hdel, hs]
  exact List.perm_middle

/-- Updating by key replaces exactly the row found. -/
theorem perm_update_key {t : Table ρ key} {k : κ} {c : ρ} (h : t.get? k = some c) (f : ρ → ρ)
    (hf : ∀ r, key (f r) = key r) : (t.update (fun r => decide (key r = k)) f hf).rows.Perm
      (f c :: (t.delete (fun r => decide (key r = k))).rows) := by
  obtain ⟨l, r, hs, hl, hr, hdel⟩ := split_delete_key h
  have hk := (get?_eq_some.1 h).2
  have hid : ∀ s : List ρ, (∀ x ∈ s, key x ≠ k) →
      s.map (fun x => if decide (key x = k) = true then f x else x) = s := by
    intro s hne
    conv_rhs => rw [← List.map_id s]
    refine List.map_congr_left (fun x hx => ?_)
    simp [hne x hx]
  rw [rows_update, hdel, hs, List.map_append, List.map_cons, hid l hl, hid r hr]
  simp only [hk, decide_true, if_true]
  exact List.perm_middle

/-- `INSERT … ON CONFLICT (key) DO NOTHING`. -/
def insertNew (t : Table ρ key) (r : ρ) : Table ρ key :=
  if h : t.get? (key r) = none then
    { rows := t.rows ++ [r]
      nodup := by
        rw [List.map_append, List.map_singleton, List.nodup_append]
        refine ⟨t.nodup, by simp, ?_⟩
        intro a ha b hb hab
        rw [List.mem_singleton] at hb
        subst hb; subst hab
        obtain ⟨x, hx, he⟩ := List.mem_map.1 ha
        exact get?_eq_none.1 h x hx he }
  else t

theorem insertNew_of_none {t : Table ρ key} {r : ρ} (h : t.get? (key r) = none) :
    (t.insertNew r).rows = t.rows ++ [r] := by
  simp [insertNew, h]

theorem insertNew_of_some {t : Table ρ key} {r x : ρ} (h : t.get? (key r) = some x) :
    t.insertNew r = t := by
  simp [insertNew, h]

theorem mem_insertNew {t : Table ρ key} {r x : ρ} (h : x ∈ (t.insertNew r).rows) :
    x ∈ t.rows ∨ x = r := by
  cases hg : t.get? (key r) with
  | none =>
    rw [insertNew_of_none hg] at h
    simpa using h
  | some y => rw [insertNew_of_some hg] at h; exact .inl h

theorem mem_insertNew_of_mem {t : Table ρ key} {r x : ρ} (h : x ∈ t.rows) :
    x ∈ (t.insertNew r).rows := by
  cases hg : t.get? (key r) with
  | none => rw [insertNew_of_none hg]; exact List.mem_append_left _ h
  | some y => rw [insertNew_of_some hg]; exact h

theorem get?_insertNew (t : Table ρ key) (r : ρ) (k : κ) :
    (t.insertNew r).get? k = (t.get? k).or (if key r = k then some r else none) := by
  cases hg : t.get? (key r) with
  | none =>
    cases hk : t.get? k with
    | none =>
      simp only [Option.none_or]
      split
      · rename_i he
        exact get?_eq_some.2 ⟨by rw [insertNew_of_none hg]; simp, he⟩
      · rename_i he
        rw [get?_eq_none]
        intro x hx
        rcases mem_insertNew hx with hx | rfl
        · exact get?_eq_none.1 hk x hx
        · exact he
    | some x =>
      obtain ⟨hx, hxk⟩ := get?_eq_some.1 hk
      rw [Option.some_or]
      exact get?_eq_some.2 ⟨mem_insertNew_of_mem hx, hxk⟩
  | some y =>
    rw [insertNew_of_some hg]
    split
    · rename_i he
      rw [← he, hg]; rfl
    · simp

theorem count_insertNew {t : Table ρ key} {r : ρ} (h : t.get? (key r) = none) (p : ρ → Bool) :
    (t.insertNew r).count p = t.count p + if p r then 1 else 0 := by
  rw [count, insertNew_of_none h, List.countP_append]
  simp [count, List.countP_cons]

/-- At most one row carries a given key. -/
theorem count_key_le_one {t : Table ρ key} {p : ρ → Bool} {k : κ}
    (h : ∀ r, p r = true → key r = k) : t.count p ≤ 1 := by
  have hle : t.count p ≤ (t.rows.map key).count k := by
    rw [List.count, List.countP_map]
    refine List.countP_mono_left (fun r _ hp => ?_)
    simp [h r hp]
  exact Nat.le_trans hle (List.nodup_iff_count_le_one.1 t.nodup k)

/-- The rows an update by key matches: none or the one found. -/
theorem count_eq_ite_get? (t : Table ρ key) (k : κ) (p : ρ → Bool) :
    t.count (fun r => decide (key r = k) && p r) =
      if (t.get? k).any p then 1 else 0 := by
  cases h : t.get? k with
  | none =>
    simp only [Option.any_none, Bool.false_eq_true, if_false, count_eq_zero]
    intro r hr
    simp [get?_eq_none.1 h r hr]
  | some x =>
    obtain ⟨hx, hk⟩ := get?_eq_some.1 h
    have hle : t.count (fun r => decide (key r = k) && p r) ≤ 1 :=
      count_key_le_one (fun r hr => by simp only [Bool.and_eq_true, decide_eq_true_eq] at hr; exact hr.1)
    rw [Option.any_some]
    split
    · rename_i hp
      have : 0 < t.count (fun r => decide (key r = k) && p r) :=
        count_pos.2 ⟨x, hx, by simp [hk, hp]⟩
      omega
    · rename_i hp
      rw [count_eq_zero]
      intro r hr
      by_cases hrk : key r = k
      · rw [eq_of_key hr hx (hrk.trans hk.symm)]; simp [hp]
      · simp [hrk]

/-- `INSERT r … ON CONFLICT (key) DO UPDATE SET f`. -/
def upsert (t : Table ρ key) (r : ρ) (f : ρ → ρ) (hf : ∀ x, key (f x) = key x) : Table ρ key :=
  match t.get? (key r) with
  | none => t.insertNew r
  | some _ => t.update (fun x => decide (key x = key r)) f hf

theorem get?_upsert (t : Table ρ key) (r : ρ) (f : ρ → ρ) (hf : ∀ x, key (f x) = key x) (k : κ) :
    (t.upsert r f hf).get? k =
      if key r = k then some (((t.get? k).map f).getD r) else t.get? k := by
  unfold upsert
  cases hg : t.get? (key r) with
  | none =>
    simp only [get?_insertNew]
    split
    · rename_i he; rw [← he, hg]; rfl
    · simp
  | some y =>
    simp only [get?_update]
    split
    · rename_i he
      rw [← he, hg]
      simp [(get?_eq_some.1 hg).2]
    · rename_i he
      cases hk : t.get? k with
      | none => rfl
      | some x =>
        have := (get?_eq_some.1 hk).2
        simp [this, Ne.symm he]

/-- An upsert of a row outside `p`, by an assignment that keeps rows in or out of `p`. -/
theorem count_upsert_eq {t : Table ρ key} {r : ρ} {f : ρ → ρ} {hf : ∀ x, key (f x) = key x}
    {p : ρ → Bool} (hr : p r = false) (hp : ∀ x, p (f x) = p x) :
    (t.upsert r f hf).count p = t.count p := by
  unfold upsert
  split
  · rename_i hnone
    rw [count_insertNew hnone, hr]
    rfl
  · exact count_update_eq hf (fun x _ _ => hp x)

theorem mem_upsert {t : Table ρ key} {r x : ρ} {f : ρ → ρ} {hf : ∀ x, key (f x) = key x}
    (h : x ∈ (t.upsert r f hf).rows) :
    x ∈ t.rows ∨ x = r ∨ ∃ y ∈ t.rows, key y = key r ∧ x = f y := by
  unfold upsert at h
  split at h
  · rcases mem_insertNew h with h | h
    · exact .inl h
    · exact .inr (.inl h)
  · obtain ⟨y, hy, rfl⟩ := mem_update.1 h
    split
    · rename_i hp
      exact .inr (.inr ⟨y, hy, by simpa using hp, rfl⟩)
    · exact .inl hy

/-! ## Ordered selection -/

end DecidableKey

/-- `ORDER BY f`. -/
def orderBy {ι : Type} [LinearOrder ι] (f : ρ → ι) (a b : ρ) : Prop := f a ≤ f b

section OrderBy

variable {ι : Type} [LinearOrder ι] (f : ρ → ι)

instance : DecidableRel (orderBy f) := fun a b => inferInstanceAs (Decidable (f a ≤ f b))

instance : Std.Total (orderBy f) := ⟨fun a b => le_total (f a) (f b)⟩

instance : IsTrans ρ (orderBy f) := ⟨fun a _ c hab hbc => show f a ≤ f c from le_trans hab hbc⟩

end OrderBy

/-- `SELECT … WHERE p ORDER BY le LIMIT n`. -/
def select (t : Table ρ key) (p : ρ → Bool) (le : ρ → ρ → Prop) [DecidableRel le] (n : Nat) :
    List ρ :=
  ((t.rows.filter p).insertionSort le).take n

variable {p : ρ → Bool} {le : ρ → ρ → Prop} [DecidableRel le]

theorem mem_of_mem_select {t : Table ρ key} {n : Nat} {r : ρ} (h : r ∈ t.select p le n) :
    r ∈ t.rows ∧ p r = true := by
  have := List.mem_of_mem_take h
  rwa [List.mem_insertionSort, List.mem_filter] at this

theorem length_select_le (t : Table ρ key) (p : ρ → Bool) (le : ρ → ρ → Prop) [DecidableRel le]
    (n : Nat) : (t.select p le n).length ≤ n := by
  simp [select]

/-- A limit at least the number of matching rows selects them all. -/
theorem mem_select_of_count_le {t : Table ρ key} {n : Nat} (hn : t.count p ≤ n) {r : ρ}
    (hr : r ∈ t.rows) (hp : p r = true) : r ∈ t.select p le n := by
  unfold select
  rw [List.take_of_length_le, List.mem_insertionSort, List.mem_filter]
  · exact ⟨hr, hp⟩
  · rw [List.length_insertionSort, ← List.countP_eq_length_filter]
    exact hn

theorem select_eq_nil {t : Table ρ key} {n : Nat} (hn : 0 < n) (h : t.select p le n = []) :
    ∀ r ∈ t.rows, p r = false := by
  intro r hr
  by_contra hp
  have hl := congrArg List.length h
  rw [select, List.length_take, List.length_insertionSort, List.length_nil] at hl
  have : r ∈ t.rows.filter p := List.mem_filter.2 ⟨hr, by simpa using hp⟩
  have := List.length_pos_of_mem this
  omega

section Total

variable [Std.Total le] [IsTrans ρ le]

theorem select_pairwise (t : Table ρ key) (n : Nat) : (t.select p le n).Pairwise le :=
  (List.pairwise_insertionSort le _).sublist (List.take_sublist _ _)

/-- **A page is an initial segment**: a matching row that is not on the page comes after every row
of the page. -/
theorem le_of_not_mem_select {t : Table ρ key} {n : Nat} {x y : ρ} (hx : x ∈ t.select p le n)
    (hy : y ∈ t.rows) (hp : p y = true) (hn : y ∉ t.select p le n) : le x y := by
  have hmem : y ∈ (t.rows.filter p).insertionSort le := by
    rw [List.mem_insertionSort, List.mem_filter]; exact ⟨hy, hp⟩
  have hsorted := List.pairwise_insertionSort le (t.rows.filter p)
  unfold select at hx hn
  rw [← List.take_append_drop n ((t.rows.filter p).insertionSort le)] at hsorted hmem
  rcases List.mem_append.1 hmem with hy' | hy'
  · exact absurd hy' hn
  · exact (List.pairwise_append.1 hsorted).2.2 x hx y hy'

/-- `ORDER BY … LIMIT 1` finds a least matching row. -/
theorem select_one {t : Table ρ key} {r : ρ} (h : (t.select p le 1).head? = some r) :
    r ∈ t.rows ∧ p r = true ∧ ∀ x ∈ t.rows, p x = true → x = r ∨ le r x := by
  have hr : r ∈ t.select p le 1 := List.mem_of_mem_head? h
  obtain ⟨h1, h2⟩ := mem_of_mem_select hr
  refine ⟨h1, h2, fun x hx hpx => ?_⟩
  by_cases hxs : x ∈ t.select p le 1
  · have hlen := length_select_le t p le 1
    match hsel : t.select p le 1, hlen with
    | [], _ => rw [hsel] at hr; cases hr
    | [a], _ =>
      rw [hsel] at hr hxs
      rw [List.mem_singleton] at hr hxs
      exact .inl (hxs.trans hr.symm)
  · exact .inr (le_of_not_mem_select hr hx hpx hxs)

/-- **The rows up to a row of a page are on the page**, if the order tells rows of the table apart. -/
theorem mem_of_select_le {t : Table ρ key} {n : Nat} {x y : ρ} {l r : List ρ}
    (hs : t.select p le n = l ++ x :: r) (hy : y ∈ t.rows) (hp : p y = true) (hle : le y x)
    (heq : le x y → y = x) : y ∈ l ++ [x] := by
  have hx : x ∈ t.select p le n := by
    rw [hs]
    exact List.mem_append_right _ List.mem_cons_self
  by_cases hmem : y ∈ t.select p le n
  · rw [hs] at hmem
    rcases List.mem_append.1 hmem with hl | hr
    · exact List.mem_append_left _ hl
    · rcases List.mem_cons.1 hr with rfl | hr
      · simp
      · have hsorted : (t.select p le n).Pairwise le := select_pairwise t n
        rw [hs] at hsorted
        have hxy := (List.pairwise_cons.1 (List.pairwise_append.1 hsorted).2.1).1 y hr
        rw [heq hxy]
        simp
  · rw [heq (le_of_not_mem_select hx hy hp hmem)]
    simp

end Total

theorem select_one_none {t : Table ρ key} (h : (t.select p le 1).head? = none) :
    ∀ r ∈ t.rows, p r = false :=
  select_eq_nil Nat.one_pos (List.head?_eq_none_iff.1 h)

end Table

end Relational
