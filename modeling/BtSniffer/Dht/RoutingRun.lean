import BtSniffer.Dht.RoutingInv

/-!
# Histories of a routing table

A history starts with `RoutingTable::new` and applies the mutating operations at non-decreasing
times.  A candidate can be reconsidered only after the table has issued it in a `ProbeRequired`,
which is how the dispatcher resolves a bucket probe (`finish_success`, `finish_network_failure`).

* `apply_cases` — what one operation can do; every invariant below is derived from it.
* `Run.shape`, `Run.admitted` — partition, placement, size and admission hold along every history.
* `representation_invariant` — with `Distinct` added, for the histories in which no candidate is
  reconsidered while the table already holds its identifier.
* `duplicate_after_reconsider` — without that restriction a candidate that has entered the table
  between its `ProbeRequired` and the resolution of the probe is stored a second time.
-/

set_option autoImplicit false

namespace BtSniffer

namespace RoutingTable

/-! ## Operations -/

/-- The mutating operations of a table. -/
inductive Op where
  | observeResponse (id : NodeId) (address : SocketAddr)
  | observeQuery (id : NodeId) (address : SocketAddr) (readOnly : Bool)
  | recordFailure (id : NodeId)
  | markRefreshed (target : NodeId)
  | reconsiderCandidate (candidate : NodeContact)
  deriving DecidableEq, Repr

end RoutingTable

/-- The candidate handed out by a `ProbeRequired`. -/
def InsertOutcome.issued : InsertOutcome → List NodeContact
  | .probeRequired _ candidate => [candidate]
  | _ => []

namespace RoutingTable

/-- One operation at `now`: the candidates it issues and the new table; `none` is a panic. -/
def apply (t : RoutingTable) (op : Op) (now : Instant) : Option (List NodeContact × RoutingTable) :=
  match op with
  | .observeResponse id address => (t.observeResponse id address now).map (fun r => (r.1.issued, r.2))
  | .observeQuery id address ro => (t.observeQuery id address ro now).map (fun r => ([], r.2))
  | .recordFailure id => (t.recordFailure id now).map (fun r => ([], r.2))
  | .markRefreshed target => (t.markRefreshed target now).map (fun r => ([], r))
  | .reconsiderCandidate c => (t.reconsiderCandidate c now).map (fun r => (r.1.issued, r.2))

/-- `candidate` is what `observe_response` builds from a sender it accepts and does not know. -/
def Newcomer (t : RoutingTable) (op : Op) (candidate : NodeContact) : Prop :=
  candidate.id ≠ t.localId ∧ t.addressFamily.accepts candidate.address = true ∧
    (∀ c ∈ t.contacts, c.id ≠ candidate.id) ∧
    ∃ id address, op = .observeResponse id address

/-- What one operation calls: nothing, an edit in place, or `insert_verified`. -/
theorem apply_calls {t t' : RoutingTable} {op : Op} {now : Instant} {issued : List NodeContact}
    (ht : t.Shape) (h : t.apply op now = some (issued, t')) :
    (t' = t ∧ issued = []) ∨ (Edits t t' ∧ issued = []) ∨
      ∃ candidate out, (op = .reconsiderCandidate candidate ∨ Newcomer t op candidate) ∧
        t.insertVerified candidate now = some (out, t') ∧ issued = out.issued := by
  cases op with
  | observeResponse id address =>
    simp only [apply, Option.map_eq_some_iff] at h
    obtain ⟨⟨out, u⟩, h, he⟩ := h
    cases he
    unfold observeResponse at h
    split at h
    · cases h; exact .inl ⟨rfl, rfl⟩
    rename_i hself
    split at h
    · cases h; exact .inl ⟨rfl, rfl⟩
    rename_i hfam
    simp only [Bool.not_eq_true', Bool.not_eq_false] at hfam
    split at h
    · cases h
    rename_i index b hb
    split at h
    · rename_i nodes hu
      cases h
      exact .inr (.inl ⟨edits_updateFirst hb hu (fun _ => rfl) (fun _ => .inr hfam), rfl⟩)
    · rename_i hu
      refine .inr (.inr ⟨_, out, .inr ⟨hself, hfam, ?_, id, address, rfl⟩, h, rfl⟩)
      refine (contact_eq_none ht).1 ?_
      simp only [contact, NodeContact.verified, hb, Option.bind_eq_bind, Option.bind_some,
        List.find?_eq_none]
      exact fun c hc => by simpa using updateFirst_none hu c hc
  | observeQuery id address ro =>
    simp only [apply, Option.map_eq_some_iff] at h
    obtain ⟨⟨out, u⟩, h, he⟩ := h
    cases he
    unfold observeQuery at h
    split at h
    · cases h; exact .inl ⟨rfl, rfl⟩
    split at h
    · cases h; exact .inl ⟨rfl, rfl⟩
    split at h
    · cases h; exact .inl ⟨rfl, rfl⟩
    split at h
    · cases h
    rename_i index b hb
    split at h
    · rename_i nodes hu
      cases h
      exact .inr (.inl ⟨edits_updateFirst hb hu (fun _ => rfl) (fun _ => .inl rfl), rfl⟩)
    · cases h; exact .inl ⟨rfl, rfl⟩
  | recordFailure id =>
    simp only [apply, Option.map_eq_some_iff] at h
    obtain ⟨⟨out, u⟩, h, he⟩ := h
    cases he
    unfold recordFailure at h
    split at h
    · cases h
    rename_i index b hb
    split at h
    · cases h; exact .inl ⟨rfl, rfl⟩
    · rename_i nodes hu
      cases h
      exact .inr (.inl ⟨edits_updateFirst hb hu (fun _ => rfl) (fun _ => .inl rfl), rfl⟩)
  | markRefreshed target =>
    simp only [apply, Option.map_eq_some_iff] at h
    obtain ⟨u, h, he⟩ := h
    cases he
    unfold markRefreshed at h
    split at h
    · cases h
    rename_i index b hb
    obtain ⟨pre, post, hs, hi, _, _⟩ := bucketOf_split hb
    cases h
    refine .inr (.inl ⟨⟨pre, b, post, _, hs, setBucket_split hs hi, rfl, rfl, ?_⟩, rfl⟩)
    exact fun c hc => .inl ⟨c, hc, rfl⟩
  | reconsiderCandidate candidate =>
    simp only [apply, Option.map_eq_some_iff] at h
    obtain ⟨⟨out, u⟩, h, he⟩ := h
    cases he
    exact .inr (.inr ⟨candidate, out, .inl rfl, h, rfl⟩)

/-- **What one operation can do**: nothing, an edit in place, or an insertion. -/
theorem apply_cases {t t' : RoutingTable} {op : Op} {now : Instant} {issued : List NodeContact}
    (ht : t.Shape) (h : t.apply op now = some (issued, t')) :
    (t' = t ∧ issued = []) ∨ (Edits t t' ∧ issued = []) ∨
      ∃ candidate s out, (op = .reconsiderCandidate candidate ∨ Newcomer t op candidate) ∧
        Refines t s ∧ Settles s candidate now out t' ∧ issued = out.issued := by
  rcases apply_calls ht h with hsame | hedit | ⟨candidate, out, hop, hins, hissued⟩
  · exact .inl hsame
  · exact .inr (.inl hedit)
  · obtain ⟨s, hr, hset⟩ := insertLoop_spec _ _ _ _ ht hins
    exact .inr (.inr ⟨candidate, s, out, hop, hr, hset, hissued⟩)

/-- **No operation panics** on a table of the right shape. -/
theorem apply_isSome {t : RoutingTable} (h : t.Shape) (op : Op) (now : Instant) :
    (t.apply op now).isSome = true := by
  cases op with
  | observeResponse id address =>
    obtain ⟨index, b, hb⟩ := bucketOf_isSome h id
    have := insertVerified_some h (NodeContact.verified id address now) now
    simp only [apply, Option.isSome_map, observeResponse, hb]
    split
    · rfl
    split
    · rfl
    split
    · rfl
    · exact this
  | observeQuery id address ro =>
    obtain ⟨index, b, hb⟩ := bucketOf_isSome h id
    simp only [apply, Option.isSome_map, observeQuery, hb]
    split
    · rfl
    split
    · rfl
    split
    · rfl
    split <;> rfl
  | recordFailure id =>
    obtain ⟨index, b, hb⟩ := bucketOf_isSome h id
    simp only [apply, Option.isSome_map, recordFailure, hb]
    split <;> rfl
  | markRefreshed target =>
    obtain ⟨index, b, hb⟩ := bucketOf_isSome h target
    simp [apply, markRefreshed, hb]
  | reconsiderCandidate candidate =>
    simpa [apply, reconsiderCandidate] using insertVerified_some h candidate now

/-! ## Histories -/

/-- A table together with the candidates it has issued so far and the time of its last step. -/
structure History where
  table : RoutingTable
  issued : List NodeContact
  clock : Instant
  deriving DecidableEq, Repr

/-- The operation may be performed: only issued candidates are reconsidered. -/
def Op.legal (h : History) : Op → Prop
  | .reconsiderCandidate c => c ∈ h.issued
  | _ => True

instance (h : History) : (op : Op) → Decidable (op.legal h)
  | .reconsiderCandidate c => inferInstanceAs (Decidable (c ∈ h.issued))
  | .observeResponse .. | .observeQuery .. | .recordFailure _ | .markRefreshed _ => .isTrue trivial

/-- A candidate is reconsidered only while no contact of the table carries its identifier. -/
def Op.fresh (t : RoutingTable) : Op → Prop
  | .reconsiderCandidate c => t.contact c.id = none
  | _ => True

instance (t : RoutingTable) : (op : Op) → Decidable (op.fresh t)
  | .reconsiderCandidate c => inferInstanceAs (Decidable (t.contact c.id = none))
  | .observeResponse .. | .observeQuery .. | .recordFailure _ | .markRefreshed _ => .isTrue trivial

/-- Histories of a table whose steps all satisfy `guard`. -/
inductive Run (guard : RoutingTable → Op → Prop) (localId : NodeId) (family : AddressFamily)
    (start : Instant) : History → Prop
  | new : Run guard localId family start ⟨new localId family start, [], start⟩
  | step {h : History} {op : Op} {now : Instant} {issued : List NodeContact} {t : RoutingTable}
      (prev : Run guard localId family start h) (later : h.clock ≤ now) (legal : op.legal h)
      (ok : guard h.table op) (eq : h.table.apply op now = some (issued, t)) :
      Run guard localId family start ⟨t, issued ++ h.issued, now⟩

variable {guard : RoutingTable → Op → Prop} {localId : NodeId} {family : AddressFamily}
  {start : Instant} {h : History}

theorem apply_shape {t t' : RoutingTable} {op : Op} {now : Instant} {issued : List NodeContact}
    (ht : t.Shape) (h : t.apply op now = some (issued, t')) : t'.Shape := by
  rcases apply_cases ht h with ⟨rfl, _⟩ | ⟨e, _⟩ | ⟨c, s, out, _, hr, hset, _⟩
  · exact ht
  · exact e.shape ht
  · exact hset.shape hr.shape

/-- **The shape holds along every history.** -/
theorem Run.shape (r : Run guard localId family start h) : h.table.Shape := by
  induction r with
  | new => exact new_shape _ _ _
  | step _ _ _ _ eq ih => exact apply_shape ih eq

/-- The candidates of a history are acceptable contacts of its table. -/
def CandidatesOk (h : History) : Prop :=
  ∀ c ∈ h.issued, c.id ≠ h.table.localId ∧ h.table.addressFamily.accepts c.address = true

theorem apply_fields {t t' : RoutingTable} {op : Op} {now : Instant} {issued : List NodeContact}
    (ht : t.Shape) (h : t.apply op now = some (issued, t')) :
    t'.localId = t.localId ∧ t'.addressFamily = t.addressFamily := by
  rcases apply_cases ht h with ⟨rfl, _⟩ | ⟨e, _⟩ | ⟨c, s, out, _, hr, hset, _⟩
  · exact ⟨rfl, rfl⟩
  · obtain ⟨_, _, _, _, _, rfl, _⟩ := e
    exact ⟨rfl, rfl⟩
  · obtain ⟨hl, hf⟩ := hset.fields
    exact ⟨hl.trans hr.localId, hf.trans hr.family⟩

/-- The candidate of an insertion is acceptable: `observe_response` has checked it, or it was
issued earlier. -/
theorem candidate_ok {op : Op} {c : NodeContact} (hl : op.legal h) (hi : CandidatesOk h)
    (hc : op = .reconsiderCandidate c ∨ Newcomer h.table op c) :
    c.id ≠ h.table.localId ∧ h.table.addressFamily.accepts c.address = true := by
  rcases hc with rfl | hn
  · exact hi c hl
  · exact ⟨hn.1, hn.2.1⟩

theorem issued_candidate {s t' : RoutingTable} {c x : NodeContact} {now : Instant}
    {out : InsertOutcome} (h : Settles s c now out t') (hx : x ∈ out.issued) : x = c := by
  cases h <;> simp_all [InsertOutcome.issued]

/-- **No contact is the local node or of the other family**, along every history. -/
theorem Run.admitted (r : Run guard localId family start h) :
    h.table.Admitted ∧ CandidatesOk h := by
  induction r with
  | new =>
    refine ⟨fun c hc => ?_, fun c hc => ?_⟩
    · rw [new_contacts] at hc; cases hc
    · cases hc
  | @step h op now issued t prev _ legal _ eq ih =>
    obtain ⟨hadm, hcand⟩ := ih
    obtain ⟨hl, hf⟩ := apply_fields prev.shape eq
    have hold : ∀ c ∈ h.issued, c.id ≠ t.localId ∧ t.addressFamily.accepts c.address = true := by
      intro c hc; rw [hl, hf]; exact hcand c hc
    rcases apply_cases prev.shape eq with ⟨rfl, rfl⟩ | ⟨e, rfl⟩ | ⟨c, s, out, hc, hr, hset, rfl⟩
    · exact ⟨hadm, hold⟩
    · exact ⟨e.admitted hadm, hold⟩
    · obtain ⟨hid, haddr⟩ := candidate_ok legal hcand hc
      refine ⟨hset.admitted (hr.admitted hadm) (by rw [hr.localId]; exact hid)
        (by rw [hr.family]; exact haddr), fun x hx => ?_⟩
      rcases List.mem_append.1 hx with hx | hx
      · rw [issued_candidate hset hx]
        show c.id ≠ t.localId ∧ t.addressFamily.accepts c.address = true
        rw [hl, hf]
        exact ⟨hid, haddr⟩
      · exact hold x hx

/-- Identifiers stay distinct as long as every reconsidered candidate is unknown to the table. -/
theorem Run.distinct (r : Run (fun t op => op.fresh t) localId family start h) :
    h.table.Distinct := by
  induction r with
  | new => exact List.nodup_nil
  | @step h op now issued t prev _ _ ok eq ih =>
    rcases apply_cases prev.shape eq with ⟨rfl, _⟩ | ⟨e, _⟩ | ⟨c, s, out, hc, hr, hset, _⟩
    · exact ih
    · show (t.contacts.map (·.id)).Nodup
      rw [e.ids]
      exact ih
    · have hnew : ∀ x ∈ h.table.contacts, x.id ≠ c.id := by
        rcases hc with rfl | hn
        · exact (contact_eq_none prev.shape).1 ok
        · exact hn.2.2.1
      exact hset.distinct (hr.distinct ih) (fun x hx => hnew x (hr.contacts.mem_iff.1 hx))

/-- **The representation invariant of the routing table.**  Along every history every identifier
lies in exactly one bucket (so no operation panics), contacts sit in the bucket of their
identifier, buckets hold at most `BUCKET_SIZE` contacts and no contact is the local node or of
the other family; identifiers are moreover distinct along every history that reconsiders a
candidate only while the table does not hold its identifier. -/
theorem representation_invariant (localId : NodeId) (family : AddressFamily) (start : Instant) :
    (∀ h, Run (fun _ _ => True) localId family start h →
      (∀ id, h.table.buckets.countP (fun b => b.range.contains id) = 1) ∧
      (∀ id, (h.table.bucketIndex id).isSome = true) ∧
      (∀ op now, (h.table.apply op now).isSome = true) ∧
      (∀ b ∈ h.table.buckets, ∀ c ∈ b.nodes, b.range.contains c.id = true) ∧
      (∀ b ∈ h.table.buckets, b.nodes.length ≤ BUCKET_SIZE) ∧
      (∀ c ∈ h.table.contacts, c.id ≠ localId ∧ family.accepts c.address = true)) ∧
    (∀ h, Run (fun t op => op.fresh t) localId family start h →
      (h.table.contacts.map (·.id)).Nodup) := by
  have hfields : ∀ {h}, Run (fun _ _ => True) localId family start h →
      h.table.localId = localId ∧ h.table.addressFamily = family := by
    intro h r
    induction r with
    | new => exact ⟨rfl, rfl⟩
    | step prev _ _ _ eq ih =>
      obtain ⟨hl, hf⟩ := apply_fields prev.shape eq
      exact ⟨hl.trans ih.1, hf.trans ih.2⟩
  refine ⟨fun h r => ?_, fun h r => r.distinct⟩
  have hs := r.shape
  obtain ⟨hl, hf⟩ := hfields r
  refine ⟨hs.partition, fun id => ?_, apply_isSome hs, hs.placed, hs.size_le, ?_⟩
  · obtain ⟨i, b, hb⟩ := bucketOf_isSome hs id
    cases hi : h.table.bucketIndex id with
    | none => simp [bucketOf, hi] at hb
    | some => rfl
  · have := r.admitted.1
    unfold Admitted at this
    rwa [hl, hf] at this

/-! ## Replaying a list of operations -/

/-- Replays a list of timed operations, checking that each step is allowed. -/
def replay (guard : RoutingTable → Op → Prop) [∀ t op, Decidable (guard t op)] :
    History → List (Op × Instant) → Option History
  | h, [] => some h
  | h, (op, now) :: rest =>
    if h.clock ≤ now ∧ op.legal h ∧ guard h.table op then
      match h.table.apply op now with
      | some (issued, t) => replay guard ⟨t, issued ++ h.issued, now⟩ rest
      | none => none
    else none

theorem replay_run [∀ t op, Decidable (guard t op)] {ops : List (Op × Instant)} {h h' : History}
    (r : Run guard localId family start h) (e : replay guard h ops = some h') :
    Run guard localId family start h' := by
  induction ops generalizing h with
  | nil => cases e; exact r
  | cons p ops ih =>
    obtain ⟨op, now⟩ := p
    simp only [replay] at e
    split at e
    · rename_i hg
      split at e
      · rename_i issued t heq
        exact ih (.step r hg.1 hg.2.1 hg.2.2 heq) e
      · cases e
    · cases e

/-- The `n`-th node of the example network. -/
def sampleNode (n : Nat) : Op := .observeResponse (BitVec.ofNat 160 n) (.v4 (BitVec.ofNat 32 n) 6881)

/-- Eight residents answer once and fall silent, the ninth node answers, and its probe is resolved
after one resident turned bad. -/
def reconsiderOnce : List (Op × Instant) :=
  (List.range 8).map (fun n => (sampleNode (n + 1), 0)) ++
  [(sampleNode 9, GOOD_FOR + 1),
   (.recordFailure 1, GOOD_FOR + 1), (.recordFailure 1, GOOD_FOR + 1),
   (.reconsiderCandidate (NodeContact.verified 9 (.v4 9 6881) (GOOD_FOR + 1)), GOOD_FOR + 1)]

/-- The invariant at the end of a history with a resolved probe. -/
theorem representation_invariant_probe :
    ∃ h, Run (fun t op => op.fresh t) 0 .ipv4 0 h ∧ h.table.contacts.length = 8 ∧
      h.issued.length = 1 ∧ (h.table.contacts.map (·.id)).Nodup ∧
      ∀ id, h.table.buckets.countP (fun b => b.range.contains id) = 1 := by
  have hrun : ∃ h, replay (fun t op => op.fresh t) ⟨new 0 .ipv4 0, [], 0⟩ reconsiderOnce = some h ∧
      replay (fun _ _ => True) ⟨new 0 .ipv4 0, [], 0⟩ reconsiderOnce = some h ∧
      h.table.contacts.length = 8 ∧ h.issued.length = 1 :=
    ⟨_, rfl, rfl, by decide, by decide⟩
  obtain ⟨h, he, he', hlen, hiss⟩ := hrun
  have hinv := representation_invariant 0 .ipv4 0
  exact ⟨h, replay_run .new he, hlen, hiss, hinv.2 h (replay_run .new he),
    (hinv.1 h (replay_run .new he')).1⟩

/-! ## A candidate stored twice -/

/-- Eight residents answer once and fall silent; the ninth node answers twice, before and after
one resident turned bad, and its probe is resolved when a second resident turned bad. -/
def reconsiderTwice : List (Op × Instant) :=
  (List.range 8).map (fun n => (sampleNode (n + 1), 0)) ++
  [(sampleNode 9, GOOD_FOR + 1),
   (.recordFailure 2, GOOD_FOR + 1), (.recordFailure 2, GOOD_FOR + 1),
   (sampleNode 9, GOOD_FOR + 1),
   (.recordFailure 1, GOOD_FOR + 1), (.recordFailure 1, GOOD_FOR + 1),
   (.reconsiderCandidate (NodeContact.verified 9 (.v4 9 6881) (GOOD_FOR + 1)), GOOD_FOR + 1)]

/-- **A reconsidered candidate can be stored twice.** -/
theorem duplicate_after_reconsider :
    ∃ h, Run (fun _ _ => True) 0 .ipv4 0 h ∧ ¬ (h.table.contacts.map (·.id)).Nodup := by
  have hrun : ∃ h, replay (fun _ _ => True) ⟨new 0 .ipv4 0, [], 0⟩ reconsiderTwice = some h ∧
      ¬ (h.table.contacts.map (·.id)).Nodup := by
    refine ⟨_, rfl, ?_⟩
    decide
  obtain ⟨h, he, hn⟩ := hrun
  exact ⟨h, replay_run .new he, hn⟩

end RoutingTable

end BtSniffer
