import BtSniffer.Collection.Jobs
import BtSniffer.Collection.PeerSearch

/-!
# The worker of one job

Reference model of `run_job`, `attempt` and `peer_retry_reason` (`src/collection/worker.rs`), of
`CandidateSelector` (`src/collection/candidate_selector/mod.rs`) and of the delivery of peers by
`search` (`src/collection/lookup.rs`).

* `Work.step` is what one event does to the work: a poll of the lookup, of the channel or of the
  attempt, the counters that the dispatcher sets, the cancellation and the total timeout.  An event
  that cannot happen in a phase leaves the work as it is.
* `attempts`, `ended`, `fetched` and `refused` only record: the addresses whose attempt started,
  whose attempt is over, for which `fetch_one` was called, and whose `try_send` failed.
* `M` is the type of the verified metadata; observation and metrics are left out.
-/

set_option autoImplicit false

namespace BtSniffer.Worker

/-- `MAX_PEER_ATTEMPTS`. -/
def MAX_PEER_ATTEMPTS : Nat := 8

/-- The capacity of the channel between the lookup and the worker. -/
def CHANNEL_CAPACITY : Nat := 32

/-- `ExecutionStage`. -/
inductive ExecutionStage where
  | localWait
  | dht
  | peer
  | validation
  deriving DecidableEq, Repr

/-- `Outcome`. -/
inductive Outcome (M : Type) where
  | control (error : QueryError)
  | success (metadata : M)
  | retry (reason : RetryReason)

/-! ## Errors of an attempt -/

/-- `PeerError`, without the data that only its text shows. -/
inductive PeerError where
  | io
  | timeout
  | protocol
  | unsupported
  | limit
  | rejected
  | disconnected
  | hashMismatch
  | handshakeHashMismatch
  deriving DecidableEq, Repr

/-- `PeerFetchError`. -/
inductive PeerFetchError where
  | noUsablePeers
  | cancelled
  | taskTimeout
  | peerFailed (error : PeerError)
  deriving DecidableEq, Repr

/-- The failure of one peer. -/
def PeerError.failure : PeerError → AttemptFailure
  | .hashMismatch => .hashMismatch
  | .protocol | .handshakeHashMismatch => .protocol
  | .timeout => .peerTimeout
  | .unsupported => .unsupported
  | .limit => .receiveLimit
  | .rejected => .rejected
  | .io | .disconnected => .peerIo

/-- `peer_retry_reason`. -/
def peerRetryReason : PeerFetchError → RetryReason
  | .peerFailed error => .failed error.failure
  | .taskTimeout => .failed .taskTimeout
  | .noUsablePeers => .failed .metadataUnavailable
  | .cancelled => .local .cancelled

/-! ## Candidates -/

/-- `CandidateSelector`; `selected` is in the order of the registrations. -/
structure CandidateSelector where
  firstHints : List SocketAddr
  remainingHints : List SocketAddr
  selected : List SocketAddr
  deriving DecidableEq, Repr

namespace CandidateSelector

/-- `CandidateSelector::new`: the first two hints go before the peers of the lookup. -/
def new (eligibleHints : List SocketAddr) : CandidateSelector :=
  ⟨eligibleHints.take (min eligibleHints.length 2), eligibleHints.drop (min eligibleHints.length 2),
    []⟩

/-- `CandidateSelector::next_ready`, with the channel that `poll_dht` reads: a first hint, a peer of
the lookup, a remaining hint. -/
def nextReady (selector : CandidateSelector) (channel : List SocketAddr) :
    Option SocketAddr × CandidateSelector × List SocketAddr :=
  match selector.firstHints with
  | hint :: rest => (some hint, { selector with firstHints := rest }, channel)
  | [] =>
    match channel with
    | peer :: rest => (some peer, selector, rest)
    | [] =>
      match selector.remainingHints with
      | hint :: rest => (some hint, { selector with remainingHints := rest }, channel)
      | [] => (none, selector, channel)

/-- `CandidateSelector::select_once`. -/
def selectOnce (selector : CandidateSelector) (address : SocketAddr) : Bool × CandidateSelector :=
  if address ∈ selector.selected then (false, selector)
  else (true, { selector with selected := selector.selected ++ [address] })

/-- `CandidateSelector::selected_count`. -/
def selectedCount (selector : CandidateSelector) : Nat := selector.selected.length

end CandidateSelector

/-! ## The work -/

/-- `LookupResult`. -/
structure LookupResult where
  hadSeeds : Bool
  sent : Nat
  localLimited : Bool
  fault : Option QueryError

/-- Where an attempt is: not polled yet, waiting for its permit, or inside `fetch_one`. -/
inductive AttemptPoint where
  | created
  | permit
  | fetching
  deriving DecidableEq, Repr

/-- Why the work ended. -/
inductive Cause where
  | cancelled
  | timedOut
  | lookupFault
  | attemptCancelled
  | downloaded
  | exhausted
  deriving DecidableEq, Repr

/-- Where the work is: at the top of its loop, waiting for a candidate, in an attempt, or over. -/
inductive Phase (M : Type) where
  | choosing
  | waiting
  | attempting (peer : SocketAddr) (point : AttemptPoint)
  | done (outcome : Outcome M) (cause : Cause)

/-- The peer of the attempt in progress. -/
def Phase.current {M : Type} : Phase M → Option SocketAddr
  | .attempting peer _ => some peer
  | _ => none

/-- The arguments of `run_job`. -/
structure Context where
  job : Job
  policy : AddressPolicy
  families : List AddressFamily

namespace Context

/-- Some family accepts the address. -/
def familyAccepts (ctx : Context) (peer : SocketAddr) : Bool :=
  ctx.families.any (fun family => family.accepts peer)

/-- The address may be attempted. -/
def eligible (ctx : Context) (peer : SocketAddr) : Bool :=
  ctx.policy.accepts peer && ctx.familyAccepts peer

end Context

/-- The local variables of `run_job`, the shared progress and the records. -/
structure Work (M : Type) where
  phase : Phase M
  selector : CandidateSelector
  channel : List SocketAddr
  collected : List SocketAddr
  stage : ExecutionStage
  dhtActive : Bool
  sent : Nat
  limited : Bool
  summary : Option LookupResult
  last : Option RetryReason
  attempts : List SocketAddr
  ended : List SocketAddr
  fetched : List SocketAddr
  refused : List SocketAddr

/-- What may happen to the work. -/
inductive Event (M : Type) where
  /-- An RPC of the job is sent. -/
  | rpcSent
  /-- A query of the job meets a local limit. -/
  | localLimit
  /-- A response of the lookup brings peers. -/
  | found (peers : List SocketAddr)
  /-- The lookup is over. -/
  | lookupDone (hadSeeds : Bool) (fault : Option QueryError)
  /-- `peers.recv()` is ready. -/
  | received
  /-- The work goes on at the top of its loop, or polls a new attempt. -/
  | proceed
  /-- The permit of the address is acquired. -/
  | acquired
  /-- `fetch_one` returns. -/
  | fetched (result : Except PeerFetchError M)
  | cancelled
  | timedOut

namespace Work

variable {M : Type} (ctx : Context)

/-- The start of `run_job`. -/
def start : Work M where
  phase := .choosing
  selector := .new (ctx.job.peers.filter ctx.eligible)
  channel := []
  collected := []
  stage := .localWait
  dhtActive := true
  sent := 0
  limited := false
  summary := none
  last := none
  attempts := []
  ended := []
  fetched := []
  refused := []

/-- The work is over; an attempt in progress is dropped. -/
def finish (s : Work M) (outcome : Outcome M) (cause : Cause) : Work M :=
  { s with phase := .done outcome cause, ended := s.ended ++ s.phase.current.toList }

/-- `try_send`, and the record of a refusal. -/
def trySend (s : Work M) (peer : SocketAddr) : Work M :=
  if s.channel.length < CHANNEL_CAPACITY then { s with channel := s.channel ++ [peer] }
  else { s with refused := s.refused ++ [peer] }

/-- One peer of a response: a new one is sent to the worker and collected. -/
def collectOne (s : Work M) (peer : SocketAddr) : Work M :=
  if s.collected.length < 32 ∧ peer ∉ s.collected then
    { s.trySend peer with collected := s.collected ++ [peer] }
  else s

/-- The peers of a response. -/
def deliver (s : Work M) (found : List SocketAddr) : Work M := found.foldl collectOne s

/-- The reason of the end of the loop. -/
def retryReason (s : Work M) : RetryReason :=
  match s.last with
  | some reason => reason
  | none =>
    if 0 < s.summary.elim s.sent (·.sent) then .failed .noPeers
    else if s.summary.elim s.limited (fun r => r.localLimited || r.hadSeeds) then
      .local .resourceWait
    else .local .noRoute

/-- The end of the loop. -/
def exhaust (s : Work M) : Work M := s.finish (.retry s.retryReason) .exhausted

/-- A candidate is checked and registered. -/
def consider (s : Work M) (peer : SocketAddr) : Work M :=
  if !ctx.policy.accepts peer then { s with phase := .choosing }
  else if !ctx.familyAccepts peer then { s with phase := .choosing }
  else
    match s.selector.selectOnce peer with
    | (false, selector) => { s with selector, phase := .choosing }
    | (true, selector) =>
      { s with selector, phase := .attempting peer .created, attempts := s.attempts ++ [peer] }

/-- One turn of the loop, up to its first await. -/
def choose (s : Work M) : Work M :=
  if s.selector.selectedCount < MAX_PEER_ATTEMPTS then
    match s.selector.nextReady s.channel with
    | (some peer, selector, channel) => consider ctx { s with selector, channel } peer
    | (none, selector, channel) =>
      let s := { s with selector, channel }
      if s.summary.isNone then { s with stage := .dht, phase := .waiting } else s.exhaust
  else s.exhaust

/-- A fault of the lookup ends the work. -/
def faultOutcome : QueryError → Outcome M
  | .identityChanged => .retry (.local .identityChanged)
  | error => .control error

/-- The lookup is over, while the worker waits or an attempt runs. -/
def lookupDone (s : Work M) (hadSeeds : Bool) (fault : Option QueryError) : Work M :=
  let s := { s with dhtActive := false }
  match fault with
  | some error => s.finish (faultOutcome error) .lookupFault
  | none =>
    let s := { s with summary := some ⟨hadSeeds, s.sent, s.limited, fault⟩ }
    match s.phase with
    | .waiting =>
      match s.channel with
      | peer :: rest => consider ctx { s with channel := rest } peer
      | [] => s.exhaust
    | _ => s

/-- The end of an attempt. -/
def attemptDone (s : Work M) (peer : SocketAddr) : Except PeerFetchError M → Work M
  | .ok metadata => { s with stage := .validation }.finish (.success metadata) .downloaded
  | .error error =>
    if peerRetryReason error = .local .cancelled then
      s.finish (.retry (.local .cancelled)) .attemptCancelled
    else
      { s with
        phase := .choosing, ended := s.ended ++ [peer], last := some (peerRetryReason error) }

/-- The total timeout: waiting locally is no failure of a peer. -/
def timeoutReason (s : Work M) : RetryReason :=
  if (s.stage = .localWait ∨ s.stage = .dht) ∧ (s.dhtActive = false ∨ s.sent = 0) then
    .local .resourceWait
  else .failed .taskTimeout

/-- An event while the worker waits for a candidate. -/
def stepWaiting (s : Work M) : Event M → Work M
  | .found peers => s.deliver peers
  | .lookupDone hadSeeds fault => lookupDone ctx s hadSeeds fault
  | .received =>
    match s.channel with
    | peer :: rest => consider ctx { s with channel := rest } peer
    | [] => s
  | _ => s

/-- An event while an attempt is in progress; the lookup is polled as long as it is not over. -/
def stepAttempting (s : Work M) (peer : SocketAddr) (point : AttemptPoint) : Event M → Work M
  | .found peers => if s.summary.isNone then s.deliver peers else s
  | .lookupDone hadSeeds fault =>
    if s.summary.isNone then lookupDone ctx s hadSeeds fault else s
  | .proceed =>
    if point = .created then { s with stage := .localWait, phase := .attempting peer .permit }
    else s
  | .acquired =>
    if point = .permit then
      { s with
        stage := .peer, phase := .attempting peer .fetching, fetched := s.fetched ++ [peer] }
    else s
  | .fetched result => if point = .fetching then s.attemptDone peer result else s
  | _ => s

/-- An event while the work is not over. -/
def stepRunning (s : Work M) : Event M → Work M
  | .rpcSent => { s with sent := s.sent + 1 }
  | .localLimit => { s with limited := true }
  | .cancelled => s.finish (.retry (.local .cancelled)) .cancelled
  | .timedOut => s.finish (.retry s.timeoutReason) .timedOut
  | event =>
    match s.phase, event with
    | .choosing, .proceed => choose ctx s
    | .waiting, event => stepWaiting ctx s event
    | .attempting peer point, event => stepAttempting ctx s peer point event
    | _, _ => s

/-- What an event does to the work. -/
def step (s : Work M) (event : Event M) : Work M :=
  match s.phase with
  | .done _ _ => s
  | _ => stepRunning ctx s event

/-- The work after some events. -/
def run (events : List (Event M)) : Work M := events.foldl (step ctx) (start ctx)

end Work

end BtSniffer.Worker
