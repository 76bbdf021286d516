import BtSniffer.Clock
import BtSniffer.Collection.Observations

/-!
# Sample ingestion

Reference model of `SampleIngest::run` in `src/collection/ingest/mod.rs`, with the channel of the
sampler and the command queue of the database thread around it.

* `advance` is the code of `consume` from the head of its loop to the next `await`; `IngestPause` says
  where a call of `run` waits.
* `IngestMove` is what can happen at a wait: the call goes on, fails or is dropped, the sampler sends or
  closes its channel, the database thread takes a command, another part of the store commits.
* A command stays in the queue when the wait for it is dropped.
* `sent`, `discarded`, `confirmed` and `committed` record the history; the code does not read them.
* Logging, metrics and the fields of a batch that only they read are left out.
-/

set_option autoImplicit false

namespace BtSniffer

/-- `SampleBatch`. -/
structure SampleBatch where
  observedAt : Int
  samples : List SwarmKey
  deriving DecidableEq, Repr

/-- `SampleIngest`; the receiver holds the batches that were sent and not received. -/
structure SampleIngest where
  clock : Clock
  receiver : List SampleBatch
  current : Option SampleBatch
  offset : Nat
  error : Option StorageError
  deriving DecidableEq, Repr

/-- The arguments of one `save_hashes_at`, and the offset its confirmation leads to. -/
structure SampleSegment where
  hashes : List SwarmKey
  observedAt : Int
  admissionAt : Int
  stop : Nat
  deriving DecidableEq, Repr

/-- Where a call of `run` is. -/
inductive IngestPause where
  /-- There is no call, or it was dropped. -/
  | idle
  /-- At `recv`. -/
  | receiving
  /-- Before the command is in the queue: at the byte budget or at the full queue. -/
  | submitting (segment : SampleSegment)
  /-- At the reply of the command with this ticket. -/
  | waiting (ticket : Nat) (segment : SampleSegment)
  /-- The reply has arrived and the call has not gone on. -/
  | replied (segment : SampleSegment) (reply : Except StorageError Reply)
  | returned (result : Except StorageError Unit)

namespace SampleIngest

/-- `SampleIngest::new`. -/
def new (clock : Clock) : SampleIngest := ⟨clock, [], none, 0, none⟩

/-- The end of `run` with an error. -/
def fail (s : SampleIngest) (error : StorageError) : SampleIngest × IngestPause :=
  ({ s with error := some error }, .returned (.error error))

/-- The code of `consume` from the head of a loop to the next `await`. -/
def advance (s : SampleIngest) (now : Nat) : SampleIngest × IngestPause :=
  match s.current with
  | none => (s, .receiving)
  | some batch =>
    match unixMillis batch.observedAt with
    | .error e => s.fail (.invalid e.label)
    | .ok observedAt =>
      if s.offset < batch.samples.length then
        let stop := min (s.offset + 1024) batch.samples.length
        match s.clock.millisAt now with
        | .error e => s.fail (.invalid e.label)
        | .ok admissionAt =>
          (s, .submitting ⟨(batch.samples.take stop).drop s.offset, observedAt, admissionAt, stop⟩)
      else ({ s with current := none, error := none }, .receiving)

end SampleIngest

/-- A command of `save_hashes_at` in the queue of the database thread. -/
structure IngestCommand where
  ticket : Nat
  config : AdmissionConfig
  segment : SampleSegment

/-- The transaction of a command. -/
def IngestCommand.op (c : IngestCommand) : StoreOp :=
  .saveHashes c.config c.segment.hashes c.segment.observedAt c.segment.admissionAt

/-- The observations of a segment. -/
def SampleSegment.observations (segment : SampleSegment) : List Observation :=
  segment.hashes.map (fun hash => (hash, segment.observedAt))

/-- The ingestion, the channel, the queue and the database. -/
structure IngestSystem where
  ingest : SampleIngest
  closed : Bool
  pause : IngestPause
  queue : List IngestCommand
  tickets : Nat
  db : Db
  sent : List SampleBatch
  discarded : List SampleBatch
  /-- The hashes of the current batch whose save `run` saw confirmed. -/
  confirmed : List SwarmKey
  /-- The observations of segments that were committed. -/
  committed : List Observation

/-- What can happen. -/
inductive IngestMove where
  | send (batch : SampleBatch)
  | close
  | call (now : Nat)
  | drop
  | receive (now : Nat)
  /-- The budget is granted and the command enters the queue. -/
  | enqueue (config : AdmissionConfig)
  /-- The budget or the queue refuses. -/
  | refuse (error : StorageError)
  /-- The database thread takes a command; a fault is an error of its own, before or after the
  commit. -/
  | execute (fault : Option (StorageError × Bool))
  /-- The database thread ends and leaves its queue. -/
  | shut
  /-- The reply channel is closed. -/
  | lose
  | resume (now : Nat)
  /-- Another transaction of the store. -/
  | other (op : StoreOp)

namespace IngestSystem

/-- Before the first call. -/
def start (clock : Clock) (db : Db) : IngestSystem :=
  ⟨.new clock, false, .idle, [], 0, db, [], [], [], []⟩

/-- The call goes on to its next `await`; a batch that it gives up is recorded. -/
def settle (w : IngestSystem) (now : Nat) : IngestSystem :=
  let r := w.ingest.advance now
  { w with
    ingest := r.1
    pause := r.2
    discarded := w.discarded ++ (if r.1.current.isNone then w.ingest.current.toList else []) }

/-- The call ends with an error. -/
def fail (w : IngestSystem) (error : StorageError) : IngestSystem :=
  let r := w.ingest.fail error
  { w with ingest := r.1, pause := r.2 }

/-- `recv` is ready: with a batch, or with the end of the channel. -/
def receive (w : IngestSystem) (now : Nat) : IngestSystem :=
  match w.ingest.receiver with
  | batch :: rest =>
    settle { w with
      ingest := { w.ingest with current := some batch, receiver := rest, offset := 0 }
      confirmed := [] } now
  | [] =>
    if w.closed then
      { w with ingest := { w.ingest with offset := 0 }, pause := .returned (.ok ()) }
    else w

/-- The reply of the database thread to a wait. -/
def answer (pause : IngestPause) (ticket : Nat) (reply : Except StorageError Reply) : IngestPause :=
  match pause with
  | .waiting t segment => if t = ticket then .replied segment reply else pause
  | _ => pause

section Runs

variable (M : Metainfo)

/-- What the database thread makes of a command: its reply, the database and the observations that
were committed. -/
def perform (db : Db) (c : IngestCommand) (fault : Option (StorageError × Bool)) :
    Except StorageError Reply × Db × List Observation :=
  let r := c.op.commit M db
  match fault, r.1 with
  | some (error, false), _ => (.error error, db, [])
  | some (error, true), .ok _ => (.error error, r.2, c.segment.observations)
  | some (error, true), .error _ => (.error error, r.2, [])
  | none, .ok reply => (.ok reply, r.2, c.segment.observations)
  | none, .error error => (.error error, r.2, [])

/-- One move; a move that is not possible changes nothing. -/
def step (w : IngestSystem) : IngestMove → IngestSystem
  | .send batch =>
    if w.closed then w
    else { w with
      sent := w.sent ++ [batch]
      ingest := { w.ingest with receiver := w.ingest.receiver ++ [batch] } }
  | .close => { w with closed := true }
  | .call now =>
    match w.pause with
    | .idle | .returned _ => w.settle now
    | _ => w
  | .drop =>
    match w.pause with
    | .returned _ => w
    | _ => { w with pause := .idle }
  | .receive now =>
    match w.pause with
    | .receiving => w.receive now
    | _ => w
  | .enqueue config =>
    match w.pause with
    | .submitting segment =>
      { w with
        pause := .waiting w.tickets segment
        queue := w.queue ++ [⟨w.tickets, config, segment⟩]
        tickets := w.tickets + 1 }
    | _ => w
  | .refuse error =>
    match w.pause with
    | .submitting _ => w.fail error
    | _ => w
  | .execute fault =>
    match w.queue with
    | [] => w
    | c :: rest =>
      let r := perform M w.db c fault
      { w with
        queue := rest
        db := r.2.1
        committed := w.committed ++ r.2.2
        pause := answer w.pause c.ticket r.1 }
  | .shut => { w with queue := [] }
  | .lose =>
    match w.pause with
    | .waiting _ _ => w.fail .closed
    | _ => w
  | .resume now =>
    match w.pause with
    | .replied segment (.ok _) =>
      settle { w with
        ingest := { w.ingest with offset := segment.stop }
        confirmed := w.confirmed ++ segment.hashes } now
    | .replied _ (.error error) => w.fail error
    | _ => w
  | .other op => { w with db := (op.commit M w.db).2 }

/-- A run of moves. -/
def run (moves : List IngestMove) (w : IngestSystem) : IngestSystem := moves.foldl (step M) w

end Runs

end IngestSystem

end BtSniffer
