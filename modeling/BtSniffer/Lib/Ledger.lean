import BtSniffer.Lib.KeyMap

/-!
# Ledgers

A table often keeps one key for each piece of work that is open somewhere else, so that the same work
is not begun twice. `Table.Records t f items` says that the keys of the table are exactly those of the
open items: no key is left behind when its item ends, and no two open items share a key.

* `Records.opens`, `Records.closes` — an item begins with its key and ends with it.
* `Records.passes` — an item hands its key on to the next one.
* `Records.isSome_iff` — what the table tells about the items.
-/

set_option autoImplicit false

namespace Relational

namespace Table

variable {ρ κ α : Type} {key : ρ → κ} {f : α → Option κ} {items items' : List α} {x : α} {k : κ}

/-- The keys of the table are those of the items. -/
def Records (t : Table ρ key) (f : α → Option κ) (items : List α) : Prop :=
  (t.rows.map key).Perm (items.filterMap f)

variable {t : Table ρ key}

theorem Records.perm (h : t.Records f items) (hp : items.Perm items') : t.Records f items' :=
  h.trans (hp.filterMap f)

theorem Records.empty (h : ∀ x ∈ items, f x = none) :
    (Table.empty : Table ρ key).Records f items := by
  unfold Records
  rw [List.filterMap_eq_nil_iff.2 h]
  exact .refl _

/-- An item ends and another one with its key begins. -/
theorem Records.passes {y : α} (h : t.Records f (x :: items)) (hxy : f y = f x) :
    t.Records f (y :: items) := by
  unfold Records at h ⊢
  rwa [List.filterMap_cons, hxy, ← List.filterMap_cons]

variable [DecidableEq κ]

/-- **A key is in the table exactly while its item is open.** -/
theorem Records.isSome_iff (h : t.Records f items) :
    (t.get? k).isSome ↔ ∃ x ∈ items, f x = some k := by
  rw [← List.mem_filterMap, ← h.mem_iff, List.mem_map]
  constructor
  · intro hk
    obtain ⟨r, hr⟩ := Option.isSome_iff_exists.1 hk
    exact ⟨r, get?_eq_some.1 hr⟩
  · rintro ⟨r, hr, rfl⟩
    rw [get?_key hr]
    rfl

/-- **An item begins**: its key is new to the table. -/
theorem Records.opens (h : t.Records f items) {r : ρ} (hx : f x = some (key r))
    (hnew : t.get? (key r) = none) : (t.insertNew r).Records f (x :: items) := by
  unfold Records
  rw [insertNew_of_none hnew, List.map_append, List.map_singleton, List.filterMap_cons_some hx]
  exact (List.perm_append_singleton _ _).trans (h.cons _)

/-- **An item ends**, and its key is given up. -/
theorem Records.closes (h : t.Records f (x :: items)) (hx : f x = some k) :
    (t.erase k).Records f items := by
  have hk : (t.get? k).isSome := h.isSome_iff.2 ⟨x, List.mem_cons_self, hx⟩
  obtain ⟨r, hr⟩ := Option.isSome_iff_exists.1 hk
  have hkey : key r = k := (get?_eq_some.1 hr).2
  unfold Records at h ⊢
  rw [List.filterMap_cons_some hx] at h
  have hrows := (perm_erase hr).map key
  rw [List.map_cons, hkey] at hrows
  exact (hrows.symm.trans h).cons_inv

end Table

end Relational
