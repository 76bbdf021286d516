import BtSniffer.Collection.Ingest

/-!
# Ingestion loses nothing

The invariant of `SampleIngest` over every run of moves: calls that finish, fail or are dropped at any
wait, with commands that commit late, early or never.

* `Ingested` — the invariant; `step_ingested`, `run_ingested` — every move and every run keep it.
* `ingest_loses_nothing` — the main result.
-/

set_option autoImplicit false

namespace BtSniffer

namespace IngestSystem

/-! ## The invariant -/

/-- A segment of the current batch that starts at the offset. -/
structure SegmentOf (s : SampleIngest) (segment : SampleSegment) (batch : SampleBatch) : Prop where
  current : s.current = some batch
  time : unixMillis batch.observedAt = .ok segment.observedAt
  from_ : s.offset ≤ segment.stop
  upto : segment.stop ≤ batch.samples.length
  hashes : segment.hashes = (batch.samples.take segment.stop).drop s.offset

/-- What is known at a wait. -/
def PauseOk (w : IngestSystem) : IngestPause → Prop
  | .idle => True
  | .receiving => w.ingest.current = none
  | .submitting segment => ∃ batch, SegmentOf w.ingest segment batch
  | .waiting ticket segment => (∃ batch, SegmentOf w.ingest segment batch) ∧
      ∀ c ∈ w.queue, c.ticket = ticket → c.segment = segment
  | .replied segment reply => (∃ batch, SegmentOf w.ingest segment batch) ∧
      ∀ r, reply = .ok r → ∀ o ∈ segment.observations, o ∈ w.committed
  | .returned (.ok ()) => w.closed = true ∧ w.ingest.current = none ∧ w.ingest.receiver = []
  | .returned (.error _) => True

/-- The samples of the current batch up to the offset were confirmed, and what was confirmed was
committed. -/
structure BatchOk (w : IngestSystem) (batch : SampleBatch) : Prop where
  bound : w.ingest.offset ≤ batch.samples.length
  confirmed : w.confirmed = batch.samples.take w.ingest.offset
  backed : ∀ t, unixMillis batch.observedAt = .ok t → ∀ hash ∈ w.confirmed, (hash, t) ∈ w.committed

/-- Every sample of a batch was committed at the time of the batch. -/
def Saved (committed : List Observation) (batch : SampleBatch) : Prop :=
  ∃ t, unixMillis batch.observedAt = .ok t ∧ ∀ hash ∈ batch.samples, (hash, t) ∈ committed

/-- The part of the invariant that does not depend on the wait. -/
structure Kept (w : IngestSystem) : Prop where
  stream : w.sent = w.discarded ++ w.ingest.current.toList ++ w.ingest.receiver
  batch : ∀ batch, w.ingest.current = some batch → w.BatchOk batch
  saved : ∀ batch ∈ w.discarded, Saved w.committed batch
  seen : ∀ o ∈ w.committed, w.db.Seen o.1 o.2
  tickets : ∀ c ∈ w.queue, c.ticket < w.tickets

/-- **The invariant.** -/
structure Ingested (w : IngestSystem) : Prop where
  kept : w.Kept
  pause : w.PauseOk w.pause

theorem Saved.mono {committed more : List Observation} {batch : SampleBatch}
    (h : Saved committed batch) (hsub : ∀ o ∈ committed, o ∈ more) : Saved more batch := by
  obtain ⟨t, ht, hall⟩ := h
  exact ⟨t, ht, fun hash hmem => hsub _ (hall hash hmem)⟩

/-- What was confirmed stays confirmed, and what was committed stays committed. -/
theorem BatchOk.mono {w w' : IngestSystem} {batch : SampleBatch} (h : w.BatchOk batch)
    (hoffset : w'.ingest.offset = w.ingest.offset) (hconfirmed : w'.confirmed = w.confirmed)
    (hcommitted : ∀ o ∈ w.committed, o ∈ w'.committed) : w'.BatchOk batch := by
  refine ⟨?_, ?_, ?_⟩
  · rw [hoffset]
    exact h.bound
  · rw [hoffset, hconfirmed]
    exact h.confirmed
  · intro t ht hash hmem
    rw [hconfirmed] at hmem
    exact hcommitted _ (h.backed t ht hash hmem)

theorem start_ingested (clock : Clock) (db : Db) : (start clock db).Ingested := by
  refine ⟨⟨rfl, ?_, ?_, ?_, ?_⟩, trivial⟩
  · intro batch h
    cases h
  · intro batch h
    cases h
  · intro o h
    cases h
  · intro c h
    cases h

/-! ## The code between two waits -/

/-- What the code can do up to its next wait. -/
theorem advance_cases (s : SampleIngest) (now : Nat) :
    (s.current = none ∧ s.advance now = (s, .receiving)) ∨
      (∃ e, s.advance now = s.fail e) ∨
      (∃ segment batch, SegmentOf s segment batch ∧ s.advance now = (s, .submitting segment)) ∨
      ∃ batch t, s.current = some batch ∧ unixMillis batch.observedAt = .ok t ∧
        batch.samples.length ≤ s.offset ∧
        s.advance now = ({ s with current := none, error := none }, .receiving) := by
  cases hcurrent : s.current with
  | none => exact .inl ⟨rfl, by simp only [SampleIngest.advance, hcurrent]⟩
  | some batch =>
    refine .inr ?_
    cases htime : unixMillis batch.observedAt with
    | error e =>
      refine .inl ⟨.invalid e.label, ?_⟩
      simp only [SampleIngest.advance, hcurrent, htime]
    | ok t =>
      by_cases hoffset : s.offset < batch.samples.length
      · cases hclock : s.clock.millisAt now with
        | error e =>
          refine .inl ⟨.invalid e.label, ?_⟩
          simp only [SampleIngest.advance, hcurrent, htime, if_pos hoffset, hclock]
        | ok admissionAt =>
          refine .inr (.inl ⟨⟨(batch.samples.take (min (s.offset + 1024) batch.samples.length)).drop
            s.offset, t, admissionAt, min (s.offset + 1024) batch.samples.length⟩, batch,
            ⟨hcurrent, htime, ?_, min_le_right _ _, rfl⟩, ?_⟩)
          · show s.offset ≤ min (s.offset + 1024) batch.samples.length
            omega
          · simp only [SampleIngest.advance, hcurrent, htime, if_pos hoffset, hclock]
      · refine .inr (.inr ⟨batch, t, rfl, htime, not_lt.1 hoffset, ?_⟩)
        simp only [SampleIngest.advance, hcurrent, htime, if_neg hoffset]

/-- The wait is no part of what is kept. -/
theorem Kept.pauseAt {w : IngestSystem} (h : w.Kept) (p : IngestPause) :
    Kept { w with pause := p } :=
  ⟨h.stream, fun b hb => (h.batch b hb).mono rfl rfl (fun _ ho => ho), h.saved, h.seen, h.tickets⟩

theorem fail_ingested {w : IngestSystem} (h : w.Kept) (error : StorageError) :
    (w.fail error).Ingested :=
  ⟨⟨h.stream, fun b hb => (h.batch b hb).mono rfl rfl (fun _ ho => ho), h.saved, h.seen,
    h.tickets⟩, trivial⟩

/-- **The code between two waits** keeps the invariant. -/
theorem settle_ingested {w : IngestSystem} (h : w.Kept) (now : Nat) : (w.settle now).Ingested := by
  obtain ⟨hnone, hadv⟩ | ⟨e, hadv⟩ | ⟨segment, batch, hseg, hadv⟩ | ⟨batch, t, hcur, ht, hall, hadv⟩ :=
    advance_cases w.ingest now
  · have hw : w.settle now = { w with pause := .receiving } := by
      simp [settle, hadv, hnone]
    rw [hw]
    exact ⟨h.pauseAt _, hnone⟩
  · have hw : w.settle now = w.fail e := by
      cases hcur : w.ingest.current <;> simp [settle, fail, hadv, SampleIngest.fail, hcur]
    rw [hw]
    exact fail_ingested h e
  · have hw : w.settle now = { w with pause := .submitting segment } := by
      simp [settle, hadv, hseg.current]
    rw [hw]
    exact ⟨h.pauseAt _, batch, hseg⟩
  · have hw : w.settle now = { w with
        ingest := { w.ingest with current := none, error := none }
        pause := .receiving
        discarded := w.discarded ++ [batch] } := by
      simp [settle, hadv, hcur]
    rw [hw]
    have hbatch := h.batch batch hcur
    have hconfirmed : w.confirmed = batch.samples := by
      rw [hbatch.confirmed, List.take_of_length_le hall]
    refine ⟨⟨?_, fun b hb => (by cases hb), ?_, h.seen, h.tickets⟩, rfl⟩
    · have hstream := h.stream
      rw [hcur] at hstream
      simpa using hstream
    · intro b hb
      rcases List.mem_append.1 hb with hb | hb
      · exact h.saved b hb
      · rw [List.mem_singleton.1 hb]
        exact ⟨t, ht, fun hash hmem => hbatch.backed t ht hash (hconfirmed ▸ hmem)⟩

/-- A batch is received when there is no current one. -/
theorem receive_ingested {w : IngestSystem} (h : w.Ingested) (hpause : w.pause = .receiving)
    (now : Nat) : (w.receive now).Ingested := by
  have hnone : w.ingest.current = none := by
    have hp := h.pause
    rw [hpause] at hp
    exact hp
  have hstream := h.kept.stream
  rw [hnone] at hstream
  unfold receive
  cases hrec : w.ingest.receiver with
  | nil =>
    simp only
    split
    · rename_i hclosed
      refine ⟨⟨h.kept.stream, fun b hb => ?_, h.kept.saved, h.kept.seen, h.kept.tickets⟩,
        ⟨hclosed, hnone, hrec⟩⟩
      cases hnone.symm.trans hb
    · exact h
  | cons batch rest =>
    rw [hrec] at hstream
    simp only
    apply settle_ingested
    refine ⟨?_, fun b hb => ?_, h.kept.saved, h.kept.seen, h.kept.tickets⟩
    · simpa using hstream
    · exact ⟨Nat.zero_le _, rfl, fun _ _ hash hmem => absurd hmem List.not_mem_nil⟩

/-! ## The database thread -/

section Runs

variable {M : Metainfo}

/-- What the database thread makes of a command. -/
theorem perform_spec (db : Db) (c : IngestCommand) (fault : Option (StorageError × Bool)) :
    (∀ hash t, db.Seen hash t → (perform M db c fault).2.1.Seen hash t) ∧
      (∀ o ∈ (perform M db c fault).2.2, (perform M db c fault).2.1.Seen o.1 o.2) ∧
      ∀ r, (perform M db c fault).1 = .ok r →
        (perform M db c fault).2.2 = c.segment.observations := by
  have hkeeps : ∀ hash t, db.Seen hash t → (c.op.commit M db).2.Seen hash t :=
    fun _ _ hs => commit_seen c.op hs
  have hdone : ∀ r, (c.op.commit M db).1 = .ok r →
      ∀ o ∈ c.segment.observations, (c.op.commit M db).2.Seen o.1 o.2 := by
    intro r hr o ho
    obtain ⟨hash, hmem, rfl⟩ := List.mem_map.1 ho
    exact saveHashes_seen hr hmem
  cases hreply : (c.op.commit M db).1 with
  | error e =>
    rcases fault with _ | ⟨error, _ | _⟩ <;> simp only [perform, hreply]
    · exact ⟨hkeeps, fun o ho => absurd ho List.not_mem_nil, fun r hr => by cases hr⟩
    · exact ⟨fun _ _ hs => hs, fun o ho => absurd ho List.not_mem_nil, fun r hr => by cases hr⟩
    · exact ⟨hkeeps, fun o ho => absurd ho List.not_mem_nil, fun r hr => by cases hr⟩
  | ok reply =>
    rcases fault with _ | ⟨error, _ | _⟩ <;> simp only [perform, hreply]
    · exact ⟨hkeeps, hdone reply hreply, fun _ _ => trivial⟩
    · exact ⟨fun _ _ hs => hs, fun o ho => absurd ho List.not_mem_nil, fun r hr => by cases hr⟩
    · exact ⟨hkeeps, hdone reply hreply, fun r hr => by cases hr⟩

/-- The database takes a command: what was committed stays, and a wait for the command sees its own
segment. -/
theorem execute_ingested {w : IngestSystem} (h : w.Ingested) {c : IngestCommand}
    {rest : List IngestCommand} (hqueue : w.queue = c :: rest)
    (fault : Option (StorageError × Bool)) :
    Ingested { w with
      queue := rest
      db := (perform M w.db c fault).2.1
      committed := w.committed ++ (perform M w.db c fault).2.2
      pause := answer w.pause c.ticket (perform M w.db c fault).1 } := by
  obtain ⟨hkeeps, hnew, hreply⟩ := @perform_spec M w.db c fault
  have hmore : ∀ o ∈ w.committed, o ∈ w.committed ++ (perform M w.db c fault).2.2 :=
    fun o ho => List.mem_append_left _ ho
  have hin : ∀ x ∈ rest, x ∈ w.queue := fun x hx => hqueue ▸ List.mem_cons_of_mem c hx
  refine ⟨⟨h.kept.stream, fun b hb => ?_, fun b hb => (h.kept.saved b hb).mono hmore, ?_,
    fun x hx => h.kept.tickets x (hin x hx)⟩, ?_⟩
  · exact (h.kept.batch b hb).mono rfl rfl hmore
  · intro o ho
    rcases List.mem_append.1 ho with ho | ho
    · exact hkeeps _ _ (h.kept.seen o ho)
    · exact hnew o ho
  · have hp := h.pause
    cases hpause : w.pause with
    | waiting ticket segment =>
      rw [hpause] at hp
      obtain ⟨hseg, hown⟩ := hp
      by_cases ht : ticket = c.ticket
      · simp only [answer, if_pos ht]
        have hsame : c.segment = segment := hown c (hqueue ▸ List.mem_cons_self) ht.symm
        refine ⟨hseg, fun r hr o ho => List.mem_append_right _ ?_⟩
        rw [hreply r hr, hsame]
        exact ho
      · simp only [answer, if_neg ht]
        exact ⟨hseg, fun x hx => hown x (hin x hx)⟩
    | replied segment reply =>
      rw [hpause] at hp
      exact ⟨hp.1, fun r hr o ho => hmore o (hp.2 r hr o ho)⟩
    | returned result =>
      rw [hpause] at hp
      cases result with
      | ok u => exact hp
      | error e => trivial
    | _ =>
      rw [hpause] at hp
      exact hp

/-! ## Moves and runs -/

/-- What is known at a wait depends on these parts only. -/
theorem PauseOk.congr {w w' : IngestSystem} {p : IngestPause} (h : w.PauseOk p)
    (hingest : w'.ingest = w.ingest) (hqueue : ∀ c ∈ w'.queue, c ∈ w.queue)
    (hcommitted : w'.committed = w.committed) (hclosed : w.closed = true → w'.closed = true) :
    w'.PauseOk p := by
  cases p with
  | idle => trivial
  | receiving =>
    show w'.ingest.current = none
    exact hingest ▸ h
  | submitting segment =>
    show ∃ batch, SegmentOf w'.ingest segment batch
    exact hingest ▸ h
  | waiting ticket segment => exact ⟨hingest ▸ h.1, fun c hc => h.2 c (hqueue c hc)⟩
  | replied segment reply => exact ⟨hingest ▸ h.1, hcommitted ▸ h.2⟩
  | returned result =>
    cases result with
    | ok u => exact ⟨hclosed h.1, hingest ▸ h.2.1, hingest ▸ h.2.2⟩
    | error e => trivial

/-- The confirmation of a segment moves the offset to its end. -/
theorem resume_ingested {w : IngestSystem} (h : w.Ingested) {segment : SampleSegment} {r : Reply}
    (hpause : w.pause = .replied segment (.ok r)) (now : Nat) :
    (settle { w with
      ingest := { w.ingest with offset := segment.stop }
      confirmed := w.confirmed ++ segment.hashes } now).Ingested := by
  have hp := h.pause
  rw [hpause] at hp
  obtain ⟨⟨batch, hseg⟩, hback⟩ := hp
  apply settle_ingested
  refine ⟨h.kept.stream, fun b hb => ?_, h.kept.saved, h.kept.seen, h.kept.tickets⟩
  have hb : b = batch := Option.some.inj (hb.symm.trans hseg.current)
  subst hb
  obtain ⟨hbound, hconfirmed, hbacked⟩ := h.kept.batch b hseg.current
  refine ⟨hseg.upto, ?_, ?_⟩
  · show w.confirmed ++ segment.hashes = b.samples.take segment.stop
    have htake : b.samples.take w.ingest.offset =
        (b.samples.take segment.stop).take w.ingest.offset := by
      rw [List.take_take, min_eq_left hseg.from_]
    rw [hconfirmed, hseg.hashes, htake, List.take_append_drop]
  · intro t ht hash hmem
    rcases List.mem_append.1 hmem with hmem | hmem
    · exact hbacked t ht hash hmem
    · have htime : segment.observedAt = t := Except.ok.inj (hseg.time.symm.trans ht)
      exact htime ▸ hback r rfl _ (List.mem_map_of_mem hmem)

/-- A command enters the queue under a new ticket. -/
theorem enqueue_ingested {w : IngestSystem} (h : w.Ingested) {segment : SampleSegment}
    (hpause : w.pause = .submitting segment) (config : AdmissionConfig) :
    Ingested { w with
      pause := .waiting w.tickets segment
      queue := w.queue ++ [⟨w.tickets, config, segment⟩]
      tickets := w.tickets + 1 } := by
  have hp := h.pause
  rw [hpause] at hp
  refine ⟨⟨h.kept.stream, fun b hb => ?_, h.kept.saved, h.kept.seen, ?_⟩, hp, ?_⟩
  · exact (h.kept.batch b hb).mono rfl rfl (fun _ ho => ho)
  · intro c hc
    rcases List.mem_append.1 hc with hc | hc
    · exact Nat.lt_succ_of_lt (h.kept.tickets c hc)
    · rw [List.mem_singleton.1 hc]
      exact Nat.lt_succ_self _
  · intro c hc hticket
    rcases List.mem_append.1 hc with hc | hc
    · exact absurd hticket (h.kept.tickets c hc).ne
    · rw [List.mem_singleton.1 hc]

/-- The sampler sends a batch; the end of the channel has not been reported. -/
theorem send_ingested {w : IngestSystem} (h : w.Ingested) (hopen : ¬ w.closed = true)
    (batch : SampleBatch) :
    Ingested { w with
      sent := w.sent ++ [batch]
      ingest := { w.ingest with receiver := w.ingest.receiver ++ [batch] } } := by
  refine ⟨⟨?_, fun b hb => ?_, h.kept.saved, h.kept.seen, h.kept.tickets⟩, ?_⟩
  · show w.sent ++ [batch] =
      w.discarded ++ w.ingest.current.toList ++ (w.ingest.receiver ++ [batch])
    rw [h.kept.stream, List.append_assoc]
  · exact (h.kept.batch b hb).mono rfl rfl (fun _ ho => ho)
  · have hp := h.pause
    have hsegment : ∀ {segment : SampleSegment},
        (∃ b, SegmentOf w.ingest segment b) → ∃ b, SegmentOf
          { w.ingest with receiver := w.ingest.receiver ++ [batch] } segment b :=
      fun ⟨b, hb⟩ => ⟨b, hb.current, hb.time, hb.from_, hb.upto, hb.hashes⟩
    show PauseOk _ w.pause
    cases hpause : w.pause with
    | idle => trivial
    | receiving =>
      rw [hpause] at hp
      exact hp
    | submitting segment =>
      rw [hpause] at hp
      exact hsegment hp
    | waiting ticket segment =>
      rw [hpause] at hp
      exact ⟨hsegment hp.1, hp.2⟩
    | replied segment reply =>
      rw [hpause] at hp
      exact ⟨hsegment hp.1, hp.2⟩
    | returned result =>
      rw [hpause] at hp
      cases result with
      | ok u => exact absurd hp.1 hopen
      | error e => trivial

/-- **Every move keeps the invariant.** -/
theorem step_ingested {w : IngestSystem} (h : w.Ingested) (move : IngestMove) :
    (w.step M move).Ingested := by
  cases move with
  | send batch =>
    simp only [step]
    split
    · exact h
    · rename_i hopen
      exact send_ingested h hopen batch
  | close =>
    refine ⟨⟨h.kept.stream, fun b hb => ?_, h.kept.saved, h.kept.seen, h.kept.tickets⟩,
      h.pause.congr rfl (fun _ hc => hc) rfl (fun _ => rfl)⟩
    exact (h.kept.batch b hb).mono rfl rfl (fun _ ho => ho)
  | call now =>
    simp only [step]
    split
    · exact settle_ingested h.kept now
    · exact settle_ingested h.kept now
    · exact h
  | drop =>
    simp only [step]
    split
    · exact h
    · exact ⟨h.kept.pauseAt _, trivial⟩
  | receive now =>
    simp only [step]
    split
    · rename_i hpause
      exact receive_ingested h hpause now
    · exact h
  | enqueue config =>
    simp only [step]
    split
    · rename_i segment hpause
      exact enqueue_ingested h hpause config
    · exact h
  | refuse error =>
    simp only [step]
    split
    · exact fail_ingested h.kept error
    · exact h
  | execute fault =>
    simp only [step]
    split
    · exact h
    · rename_i c rest hqueue
      exact execute_ingested h hqueue fault
  | shut =>
    refine ⟨⟨h.kept.stream, fun b hb => ?_, h.kept.saved, h.kept.seen,
      fun c hc => absurd hc List.not_mem_nil⟩,
      h.pause.congr rfl (fun _ hc => absurd hc List.not_mem_nil) rfl (fun hc => hc)⟩
    exact (h.kept.batch b hb).mono rfl rfl (fun _ ho => ho)
  | lose =>
    simp only [step]
    split
    · exact fail_ingested h.kept .closed
    · exact h
  | resume now =>
    simp only [step]
    split
    · rename_i segment r hpause
      exact resume_ingested h hpause now
    · rename_i segment error hpause
      exact fail_ingested h.kept error
    · exact h
  | other op =>
    refine ⟨⟨h.kept.stream, fun b hb => ?_, h.kept.saved,
      fun o ho => commit_seen op (h.kept.seen o ho), h.kept.tickets⟩,
      h.pause.congr rfl (fun _ hc => hc) rfl (fun hc => hc)⟩
    exact (h.kept.batch b hb).mono rfl rfl (fun _ ho => ho)

/-- **Every run keeps the invariant.** -/
theorem run_ingested : ∀ (moves : List IngestMove) {w : IngestSystem}, w.Ingested →
    (run M moves w).Ingested
  | [], _, h => h
  | move :: moves, _, h => run_ingested moves (step_ingested h move)

/-- When a call has returned `Ok`, every batch that was sent is covered. -/
theorem Ingested.covered {w : IngestSystem} (h : w.Ingested) (hpause : w.pause = .returned (.ok ()))
    {batch : SampleBatch} (hsent : batch ∈ w.sent) :
    ∃ t, unixMillis batch.observedAt = .ok t ∧ ∀ hash ∈ batch.samples, w.db.Seen hash t := by
  have hp := h.pause
  rw [hpause] at hp
  obtain ⟨-, hcurrent, hreceiver⟩ := hp
  have hstream := h.kept.stream
  rw [hcurrent, hreceiver] at hstream
  have hdiscarded : batch ∈ w.discarded := by
    rw [hstream] at hsent
    simpa using hsent
  obtain ⟨t, ht, hall⟩ := h.kept.saved batch hdiscarded
  exact ⟨t, ht, fun hash hmem => h.kept.seen _ (hall hash hmem)⟩

end Runs

/-- **Ingestion loses nothing.** For every run of moves: the batches that were sent are those given up,
the current one and those still in the channel; the offset counts samples whose save was confirmed and
committed; a batch is given up only after all its samples were committed; when `run` returns `Ok`, the
row of every sample of every batch covers the time of its batch.  The rows of any observations are the
same whatever their order and repetitions, with the least and the greatest time, and a segment that was
committed changes no row when it is replayed. -/
theorem ingest_loses_nothing (M : Metainfo) (clock : Clock) (db : Db) (moves : List IngestMove) :
    (∀ w, run M moves (start clock db) = w →
      w.sent = w.discarded ++ w.ingest.current.toList ++ w.ingest.receiver ∧
      (∀ batch, w.ingest.current = some batch →
        w.ingest.offset ≤ batch.samples.length ∧
        w.confirmed = batch.samples.take w.ingest.offset ∧
        ∀ t, unixMillis batch.observedAt = .ok t →
          ∀ hash ∈ w.confirmed, (hash, t) ∈ w.committed) ∧
      (∀ batch ∈ w.discarded, Saved w.committed batch) ∧
      (∀ o ∈ w.committed, w.db.Seen o.1 o.2) ∧
      (w.pause = .returned (.ok ()) → ∀ batch ∈ w.sent,
        ∃ t, unixMillis batch.observedAt = .ok t ∧ ∀ hash ∈ batch.samples, w.db.Seen hash t) ∧
      ∀ c : IngestCommand, (∀ o ∈ c.segment.observations, o ∈ w.committed) →
        ∀ k, (c.op.commit M w.db).2.infohashes.get? k = w.db.infohashes.get? k) ∧
    (∀ observations db, (∀ o ∈ observations, 0 ≤ o.2) →
      ∃ db', upsertAll observations db = .ok db' ∧ (∀ o ∈ observations, db'.Seen o.1 o.2) ∧
        ∀ k row, db'.infohashes.get? k = some row →
          IsLeast (timesOf observations k ∪ db.firstOf k) row.firstSeen ∧
          IsGreatest (timesOf observations k ∪ db.lastOf k) row.lastSeen) ∧
    (∀ xs ys db dx dy, (∀ o, o ∈ xs ↔ o ∈ ys) → upsertAll xs db = .ok dx →
      upsertAll ys db = .ok dy → ∀ k, dx.infohashes.get? k = dy.infohashes.get? k) := by
  refine ⟨?_, ?_, fun xs ys db dx dy hsame hx hy => upsertAll_same hsame hx hy⟩
  · rintro w rfl
    have h : (run M moves (start clock db)).Ingested := run_ingested moves (start_ingested clock db)
    refine ⟨h.kept.stream, fun batch hb => ?_, h.kept.saved, h.kept.seen,
      fun hpause batch hsent => h.covered hpause hsent, fun c hc => ?_⟩
    · exact ⟨(h.kept.batch batch hb).bound, (h.kept.batch batch hb).confirmed,
        (h.kept.batch batch hb).backed⟩
    · refine saveHashes_again (fun hash hmem => ?_)
      exact h.kept.seen _ (hc _ (List.mem_map_of_mem hmem))
  · intro observations db htimes
    obtain ⟨db', hdb'⟩ := upsertAll_total observations db htimes
    exact ⟨db', hdb', fun o ho => upsertAll_seen hdb' ho,
      fun k row hrow => (upsertAll_row hdb').1 row hrow⟩

/-- The wait for a segment is dropped; its command commits late, its replay commits too, and the last
call returns `Ok`. -/
example :
    let w := run .ofEmptyDictionary [.send ⟨5000000, [7, 9]⟩, .close, .call 0, .receive 0,
      .enqueue ⟨4, 0, .publicOnly⟩, .drop, .call 0, .enqueue ⟨4, 0, .publicOnly⟩, .execute none,
      .execute none, .resume 0, .receive 0] (start ⟨0, 0⟩ .empty)
    (match w.pause with
      | .returned (.ok ()) => w.committed.length
      | _ => 0) = 4 ∧ w.db.infohashes.get? 9 = some ⟨9, 5, 5⟩ := by
  decide +kernel

end IngestSystem

end BtSniffer
