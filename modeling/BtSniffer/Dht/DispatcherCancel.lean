import BtSniffer.Dht.DispatcherCompletion

/-!
# Cancellation keeps the books

* `Open.cancelFetchQueries` — the queries of callers who have gone are taken out.
* `Open.stopSampler` — so are all requests of the sampler, which holds nothing afterwards.
-/

set_option autoImplicit false

namespace BtSniffer

open Relational

namespace Dispatcher

variable {d d' : Dispatcher} {asked : List Caller} {now : Nat} {hand purposes : List Purpose}
  {p : Purpose} {late : List TransactionId} {moving starts : Nat}

/-! ## Taking queries out -/

/-- The open purposes may be listed in another order. -/
theorem Open.perm (h : d.Open asked now hand late moving starts) {hand' : List Purpose}
    (hp : hand.Perm hand') : d.Open asked now hand' late moving starts :=
  ⟨h.books, h.accounts.perm (hp.append_left _)⟩

/-- Queries are taken out of the queue. -/
theorem Open.unqueue (h : d.Open asked now hand late moving starts) (keep : Queued → Bool) :
    { d with queued := d.queued.filter keep }.Open asked now
      ((d.queued.filter (fun q => !keep q)).map Queued.purpose ++ hand) late moving starts := by
  obtain ⟨hids, hspare, hsmall, hroom⟩ := h.books
  have hle := List.length_filter_le keep d.queued
  refine ⟨⟨hids, fun id hid => ?_, hsmall, ?_⟩, ?_⟩
  · have := hspare id hid
    simp only
    omega
  · unfold occupied automaticLimit at *
    simp only
    omega
  · have hsplit := (List.filter_append_perm keep d.queued).map Queued.purpose
    rw [List.map_append] at hsplit
    refine h.accounts.perm ?_ |>.frame rfl
    unfold outstanding
    refine ((hsplit.symm.append_right _).append_right _).trans ?_
    simp only [List.append_assoc]
    refine List.Perm.append_left _ ?_
    exact List.perm_append_comm_assoc _ _ _

/-- A pending query has its transaction. -/
theorem Open.isSome_transaction (h : d.Open asked now hand [] moving starts) {x : PendingDispatch}
    (hx : x ∈ d.pending.rows) : (d.transactions.pending.get? x.id).isSome := by
  have hmem : x.id ∈ d.registered := by
    have := h.books.ids.mem_iff.1 (List.mem_map_of_mem hx)
    rwa [List.append_nil] at this
  obtain ⟨y, hy, hid⟩ := List.mem_map.1 hmem
  rw [← hid, Table.get?_key hy]
  rfl

/-- A pending query is cancelled. -/
theorem Open.cancelPending (h : d.Open asked now hand [] moving starts) {x : PendingDispatch}
    (hx : x ∈ d.pending.rows) :
    { d with
      transactions := (d.transactions.cancel x.id).2
      pending := d.pending.erase x.id }.Open asked now (x.purpose :: hand) [] moving starts :=
  h.takeOut (Table.get?_key hx) (h.isSome_transaction hx)

/-- Other queries stay pending. -/
theorem mem_erase_rest {x : PendingDispatch} {rest : List PendingDispatch}
    (hmem : ∀ y ∈ x :: rest, y ∈ d.pending.rows)
    (hids : ((x :: rest).map PendingDispatch.id).Nodup) :
    ∀ y ∈ rest, y ∈ (d.pending.erase x.id).rows := by
  intro y hy
  refine Table.mem_erase.2 ⟨hmem y (List.mem_cons_of_mem _ hy), ?_⟩
  rintro heq
  exact (List.nodup_cons.1 hids).1 (heq ▸ List.mem_map_of_mem hy)

/-- Some of the pending queries. -/
theorem filter_pending (d : Dispatcher) (keep : PendingDispatch → Bool) :
    (∀ y ∈ d.pending.rows.filter keep, y ∈ d.pending.rows) ∧
      ((d.pending.rows.filter keep).map PendingDispatch.id).Nodup := by
  refine ⟨fun y hy => (List.mem_filter.1 hy).1, ?_⟩
  exact d.pending.nodup.sublist (List.filter_sublist.map _)

/-! ## Callers who have gone -/

theorem Open.reclaimQueued : ∀ (queue : List Queued) {d : Dispatcher},
    (∀ q ∈ queue, q.purpose.caller?.isSome) →
    d.Open asked now (queue.map Queued.purpose ++ hand) late moving starts →
    (queue.foldl (fun d q => d.reclaim q.purpose) d).Open asked now hand late moving starts
  | [], _, _, h => h
  | q :: rest, d, hcaller, h => by
    obtain ⟨caller, hq⟩ := Option.isSome_iff_exists.1 (hcaller q List.mem_cons_self)
    exact Open.reclaimQueued rest (fun x hx => hcaller x (List.mem_cons_of_mem _ hx))
      (h.settle rfl (fun ha => ha.reclaim hq))

theorem Open.reclaimAll : ∀ (ps : List PendingDispatch) {d : Dispatcher},
    (∀ x ∈ ps, x ∈ d.pending.rows) → (ps.map PendingDispatch.id).Nodup →
    (∀ x ∈ ps, x.purpose.caller?.isSome) → d.Open asked now hand [] moving starts →
    (ps.foldl reclaimPending d).Open asked now hand [] moving starts
  | [], _, _, _, _, h => h
  | x :: rest, d, hmem, hids, hcaller, h => by
    obtain ⟨caller, hx⟩ := Option.isSome_iff_exists.1 (hcaller x List.mem_cons_self)
    have htaken := h.cancelPending (hmem x List.mem_cons_self)
    exact Open.reclaimAll rest (mem_erase_rest hmem hids) (List.nodup_cons.1 hids).2
      (fun y hy => hcaller y (List.mem_cons_of_mem _ hy))
      (htaken.settle rfl (fun ha => ha.reclaim hx))

/-- **`cancel_fetch_queries`** gives up the queries of callers who have gone. -/
theorem Open.cancelFetchQueries (h : d.Open asked now hand [] 0 0) (gone : Caller → Bool) :
    (d.cancelFetchQueries gone).Open asked now hand [] 0 0 := by
  have hcaller : ∀ p : Purpose, p.caller?.any gone = true → p.caller?.isSome := by
    intro p hp
    cases hc : p.caller? with
    | none =>
      rw [hc] at hp
      cases hp
    | some _ => rfl
  have hqueue := h.unqueue (fun q => !q.purpose.caller?.any gone)
  simp only [Bool.not_not] at hqueue
  have hdropped := Open.reclaimQueued _
    (fun q hq => hcaller _ (List.mem_filter.1 hq).2) hqueue
  obtain ⟨hmem, hids⟩ := filter_pending
    ((d.queued.filter (fun q => q.purpose.caller?.any gone)).foldl (fun d q => d.reclaim q.purpose)
      { d with queued := d.queued.filter (fun q => !q.purpose.caller?.any gone) })
    (fun p => p.purpose.caller?.any gone)
  unfold Dispatcher.cancelFetchQueries
  exact Open.reclaimAll _ hmem hids (fun x hx => hcaller _ (List.mem_filter.1 hx).2) hdropped

/-! ## The sampler is stopped -/

theorem Open.abandonQueued : ∀ (requests : List Request) {d : Dispatcher},
    d.Open asked now (requests.map Purpose.sampling ++ hand) late moving starts →
    (requests.foldl (fun d r => { d with sampler := d.sampler.abandonUnsent r now }) d).Open asked now
      hand late moving starts
  | [], _, h => h
  | _ :: rest, _, h =>
    Open.abandonQueued rest (h.settle rfl (fun ha => ha.endSampling (fun hd => hd.abandonUnsent)))

/-- A purpose with a request is that of the sampler. -/
theorem of_request {request : Request} (h : p.request? = some request) : p = .sampling request := by
  cases p with
  | sampling r => exact congrArg _ (Option.some.inj h)
  | _ => cases h

/-- The purposes of the sampler among others. -/
theorem sampling_purposes (queue : List Queued) :
    (queue.filter (fun q => !q.purpose.request?.isNone)).map Queued.purpose =
      (queue.filterMap (fun q => q.purpose.request?)).map Purpose.sampling := by
  induction queue with
  | nil => rfl
  | cons q rest ih =>
    cases hq : q.purpose.request? with
    | none =>
      rw [List.filter_cons_of_neg (by simp [hq]),
        List.filterMap_cons_none (f := fun q : Queued => q.purpose.request?) hq]
      exact ih
    | some request =>
      rw [List.filter_cons_of_pos (by simp [hq]),
        List.filterMap_cons_some (f := fun q : Queued => q.purpose.request?) hq, List.map_cons,
        List.map_cons, ih, of_request hq]

/-- **`discard_queued_sampling`** gives up the requests that wait in the queue. -/
theorem Open.discardQueuedSampling (h : d.Open asked now hand late moving starts) :
    (d.discardQueuedSampling now).Open asked now hand late moving starts := by
  have hqueue := h.unqueue (fun q => q.purpose.request?.isNone)
  rw [sampling_purposes] at hqueue
  unfold Dispatcher.discardQueuedSampling
  exact Open.abandonQueued _ hqueue

/-- Requests that are abandoned leave everything but the sampler. -/
theorem abandonQueued_eq (now : Nat) : ∀ (requests : List Request) (d : Dispatcher),
    requests.foldl (fun d r => { d with sampler := d.sampler.abandonUnsent r now }) d =
      { d with sampler := requests.foldl (fun s r => s.abandonUnsent r now) d.sampler }
  | [], _ => rfl
  | _ :: rest, _ => abandonQueued_eq now rest _

theorem discardQueuedSampling_queued (d : Dispatcher) (now : Nat) :
    (d.discardQueuedSampling now).queued = d.queued.filter (fun q => q.purpose.request?.isNone) := by
  unfold Dispatcher.discardQueuedSampling
  rw [abandonQueued_eq]

/-- A pending sampling request is taken out. -/
def dropSampling (d : Dispatcher) (p : PendingDispatch) : Dispatcher :=
  match p.purpose.request? with
  | none => d
  | some _ =>
    { d with
      transactions := (d.transactions.cancel p.id).2
      pending := d.pending.erase p.id }

/-- The requests are cancelled while their queries are taken out; one can do so afterwards. -/
theorem cancelSampling_eq (now : Nat) : ∀ (ps : List PendingDispatch) (d : Dispatcher) (s : Sampler),
    ps.foldl (cancelSampling now) { d with sampler := s } =
      { ps.foldl dropSampling d with
        sampler := (ps.filterMap (fun p => p.purpose.request?)).foldl
          (fun s r => s.cancelRequest r now now) s }
  | [], _, _ => rfl
  | p :: rest, d, s => by
    rw [List.foldl_cons, List.foldl_cons]
    cases hp : p.purpose.request? with
    | none =>
      rw [List.filterMap_cons_none (f := fun p : PendingDispatch => p.purpose.request?) hp]
      unfold cancelSampling dropSampling
      simp only [hp]
      exact cancelSampling_eq now rest d s
    | some request =>
      rw [List.filterMap_cons_some (f := fun p : PendingDispatch => p.purpose.request?) hp]
      have hstep : cancelSampling now { d with sampler := s } p =
          { dropSampling d p with sampler := s.cancelRequest request now now } := by
        unfold cancelSampling dropSampling
        simp only [hp]
      rw [hstep]
      exact cancelSampling_eq now rest (dropSampling d p) (s.cancelRequest request now now)

/-- All requests of the sampler are taken out. -/
theorem Open.dropAll : ∀ (ps : List PendingDispatch) {d : Dispatcher} {hand : List Purpose},
    (∀ x ∈ ps, x ∈ d.pending.rows) → (ps.map PendingDispatch.id).Nodup →
    d.Open asked now hand [] moving starts →
    (ps.foldl dropSampling d).Open asked now
      ((ps.filterMap (fun p => p.purpose.request?)).map Purpose.sampling ++ hand) [] moving starts
  | [], _, _, _, _, h => h
  | x :: rest, d, hand, hmem, hids, h => by
    have hrest := (List.nodup_cons.1 hids).2
    rw [List.foldl_cons]
    cases hx : x.purpose.request? with
    | none =>
      rw [List.filterMap_cons_none (f := fun p : PendingDispatch => p.purpose.request?) hx]
      unfold dropSampling
      simp only [hx]
      exact Open.dropAll rest (fun y hy => hmem y (List.mem_cons_of_mem _ hy)) hrest h
    | some request =>
      have htaken := h.cancelPending (hmem x List.mem_cons_self)
      rw [of_request hx] at htaken
      have hall := Open.dropAll rest (d := dropSampling d x) (by
        unfold dropSampling
        simp only [hx]
        exact mem_erase_rest hmem hids) hrest (by
        unfold dropSampling
        simp only [hx]
        exact htaken)
      rw [List.filterMap_cons_some (f := fun p : PendingDispatch => p.purpose.request?) hx,
        List.map_cons]
      exact hall.perm List.perm_middle

/-- What is left pending when all requests of the sampler are taken out. -/
theorem dropAll_pending : ∀ (ps : List PendingDispatch) (d : Dispatcher) {y : PendingDispatch},
    y ∈ (ps.foldl dropSampling d).pending.rows →
    y ∈ d.pending.rows ∧ (y ∈ ps → y.purpose.request? = none)
  | [], _, _, hy => ⟨hy, fun h => absurd h List.not_mem_nil⟩
  | x :: rest, d, y, hy => by
    obtain ⟨hmem, hrest⟩ := dropAll_pending rest _ hy
    cases hx : x.purpose.request? with
    | none =>
      unfold dropSampling at hmem
      simp only [hx] at hmem
      refine ⟨hmem, fun hin => ?_⟩
      rcases List.mem_cons.1 hin with rfl | hin
      · exact hx
      · exact hrest hin
    | some request =>
      unfold dropSampling at hmem
      simp only [hx] at hmem
      obtain ⟨hold, hne⟩ := Table.mem_erase.1 hmem
      refine ⟨hold, fun hin => ?_⟩
      rcases List.mem_cons.1 hin with rfl | hin
      · exact absurd rfl hne
      · exact hrest hin

theorem dropAll_frame : ∀ (ps : List PendingDispatch) (d : Dispatcher),
    (ps.foldl dropSampling d).queued = d.queued ∧ (ps.foldl dropSampling d).sampler = d.sampler
  | [], _ => ⟨rfl, rfl⟩
  | x :: rest, d => by
    obtain ⟨hqueued, hsampler⟩ := dropAll_frame rest (dropSampling d x)
    have hx : (dropSampling d x).queued = d.queued ∧ (dropSampling d x).sampler = d.sampler := by
      unfold dropSampling
      split <;> exact ⟨rfl, rfl⟩
    exact ⟨hqueued.trans hx.1, hsampler.trans hx.2⟩

/-- The sampler is another one, which holds nothing. -/
theorem Accounts.landSampler {requests : List Request} {s' : Sampler}
    (h : d.Accounts asked now (requests.map Purpose.sampling ++ purposes))
    (hnone : ∀ p ∈ purposes, p.request? = none)
    (hs : d.sampler.Driven now requests → s'.Driven now []) :
    { d with sampler := s' }.Accounts asked now purposes := by
  have hskip : ∀ {β : Type} (f : Purpose → Option β), (∀ r, f (.sampling r) = none) →
      (requests.map Purpose.sampling ++ purposes).filterMap f = purposes.filterMap f := by
    intro β f hf
    have hnil : (requests.map Purpose.sampling).filterMap f = [] := by
      rw [List.filterMap_map]
      exact List.filterMap_eq_nil_iff.2 (fun r _ => hf r)
    rw [List.filterMap_append, hnil, List.nil_append]
  have hrequests : (requests.map Purpose.sampling ++ purposes).filterMap Purpose.request? =
      requests := by
    rw [List.filterMap_append, List.filterMap_map, List.filterMap_eq_nil_iff.2 hnone, List.append_nil]
    exact List.filterMap_some
  obtain ⟨hv, hb, hr, hw, hl, hsampler, hc, hrouting⟩ := h
  unfold Table.Records at hv hb hr
  rw [hskip _ (fun _ => rfl)] at hv hb hr hl hc
  rw [hrequests] at hsampler
  refine ⟨hv, hb, hr, hw, hl, ?_, hc, hrouting⟩
  rw [List.filterMap_eq_nil_iff.2 hnone]
  exact hs hsampler

/-- After `stop_sampler` no request of the sampler is queued or pending. -/
theorem stopSampler_eq (d : Dispatcher) (now : Nat) : ∃ d₁ : Dispatcher, ∃ requests : List Request,
    d.stopSampler now = { d₁ with
      sampler := requests.foldl (fun s r => s.cancelRequest r now now) (d₁.sampler.stop now) } ∧
    (∀ p ∈ d₁.outstanding, p.request? = none) ∧
    ∀ {asked : List Caller} {hand : List Purpose}, d.Open asked now hand [] 0 0 →
      d₁.Open asked now (requests.map Purpose.sampling ++ hand) [] 0 0 := by
  let d₀ := d.discardQueuedSampling now
  obtain ⟨hmem, hids⟩ := filter_pending d₀ (fun _ => true)
  rw [List.filter_true] at hmem hids
  obtain ⟨hqueued, hsampler⟩ := dropAll_frame d₀.pending.rows d₀
  refine ⟨d₀.pending.rows.foldl dropSampling d₀,
    d₀.pending.rows.filterMap (fun p => p.purpose.request?), ?_, ?_, fun h => ?_⟩
  · rw [hsampler]
    exact cancelSampling_eq now d₀.pending.rows d₀ (d₀.sampler.stop now)
  · intro p hp
    unfold outstanding at hp
    rcases List.mem_append.1 hp with hp | hp
    · obtain ⟨q, hq, rfl⟩ := List.mem_map.1 hp
      rw [hqueued, discardQueuedSampling_queued] at hq
      exact Option.isNone_iff_eq_none.1 (List.mem_filter.1 hq).2
    · obtain ⟨y, hy, rfl⟩ := List.mem_map.1 hp
      obtain ⟨hold, hnone⟩ := dropAll_pending _ _ hy
      exact hnone hold
  · exact Open.dropAll d₀.pending.rows hmem hids h.discardQueuedSampling

/-- **`stop_sampler`** takes out all requests of the sampler. -/
theorem Open.stopSampler (h : d.Open asked now [] [] 0 0) :
    (d.stopSampler now).Open asked now [] [] 0 0 := by
  obtain ⟨d₁, requests, heq, hnone, hopen⟩ := stopSampler_eq d now
  have hd₁ := hopen h
  rw [heq]
  refine ⟨hd₁.books.frame rfl, ?_⟩
  have haccounts : d₁.Accounts asked now
      (requests.map Purpose.sampling ++ (d₁.outstanding ++ [])) := by
    refine hd₁.accounts.perm ?_
    rw [List.append_nil, List.append_nil]
    exact List.perm_append_comm
  refine haccounts.landSampler ?_ (fun hd => hd.stopAll) |>.frame rfl
  rwa [List.append_nil]

end Dispatcher

end BtSniffer
