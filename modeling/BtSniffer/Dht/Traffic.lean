import BtSniffer.Address
import BtSniffer.Lib.Gcra
import BtSniffer.Lib.KeyMap
import Mathlib.Logic.Function.Basic

/-!
# The traffic budget

Reference model of `src/dht/traffic/api.rs`, `limiter.rs` and `state.rs`.  The rate limiter of
`governor` is a `Gcra` cell.

* Times are nanoseconds.  A call reads the monotonic clock several times: `t i` is its reading
  number `i`, and a reading that a branch does not take keeps its number.
* An operation that may panic returns an `Option`.
-/

set_option autoImplicit false

namespace BtSniffer.Traffic

open Relational Gcra

/-- One second. -/
def SECOND : Nat := 1000000000

/-- The bound of the IP table. -/
def IP_LIMIT : Nat := 10000

/-! ## Limiters -/

/-- `ProbeState`: the committed time of the cell, and whether a success is written back. -/
structure ProbeState where
  tat : Cell
  commit : Bool
  deriving DecidableEq, Repr

/-- `ProbeState::measure_and_replace`. -/
def ProbeState.measureAndReplace (state : ProbeState) (operation : Cell → Verdict) :
    Verdict × ProbeState :=
  match operation state.tat with
  | .conforms next =>
    (.conforms next, if state.commit then { state with tat := some next } else state)
  | refused => (refused, state)

/-- The quota of a rate: the interval of one unit is rounded up, the burst is one second's units. -/
def quotaOf (rate : Nat) (h : 0 < rate) : Quota where
  period := (1000000000 + rate - 1) / rate
  burst := rate
  period_pos := Nat.div_pos (by omega) h
  burst_pos := h

/-- `Limiter`.  `anchor` is the instant of its `TokioClock`, `start` what that clock showed when the
`RateLimiter` was made. -/
structure Limiter where
  rate : Nat
  rate_pos : 0 < rate
  anchor : Nat
  start : Nat
  state : ProbeState
  deriving DecidableEq, Repr

namespace Limiter

def quota (l : Limiter) : Quota := quotaOf l.rate l.rate_pos

/-- `Limiter::new`. -/
def new (rate : Nat) (h : 0 < rate) (t : Nat → Nat) : Limiter where
  rate := rate
  rate_pos := h
  anchor := t 0
  start := t 1 - t 0
  state := ⟨none, false⟩

/-- `TokioClock::now`. -/
def clockNow (l : Limiter) (now : Nat) : Nat := now - l.anchor

/-- The time that `governor` hands to its cell: what the clock shows, less the start. -/
def elapsed (l : Limiter) (now : Nat) : Nat := l.clockNow now - l.start

/-- `Limiter::check`: the clock is read at `t 0`, and once more at `t 1` after a refusal. -/
def check (l : Limiter) (count : Nat) (commit : Bool) (t : Nat → Nat) : Nat × Limiter :=
  match ({ l.state with commit }).measureAndReplace
      (fun tat => l.quota.testN tat (l.elapsed (t 0)) (max count 1)) with
  | (.conforms _, state) => (0, { l with state })
  | (.notUntil earliest, state) => (l.start + earliest - l.clockNow (t 1), { l with state })
  | (.insufficient, state) => (5 * SECOND, { l with state })

/-- The committed time of the cell. -/
def cell (l : Limiter) : Cell := l.state.tat

end Limiter

/-! ## Configuration -/

/-- `Config`. -/
structure Config where
  queries : Nat
  inbound : Nat
  upload : Nat
  deriving DecidableEq, Repr

/-- `Class`. -/
inductive Class where
  | collector
  | control
  | sampling
  | verification
  deriving DecidableEq, Repr

namespace Config

/-- The condition under which `Config::validate` fails. -/
def Invalid (config : Config) : Prop :=
  config.queries < 10 ∨ config.inbound = 0 ∨ config.upload < 32768

instance (config : Config) : Decidable config.Invalid := inferInstanceAs (Decidable (_ ∨ _ ∨ _))

/-- `Config::classes`. -/
def classes (config : Config) : Class → Nat
  | .collector => config.queries / 2
  | .control => config.queries - config.queries / 2 - 2 * (config.queries / 10)
  | .sampling => config.queries / 10
  | .verification => config.queries / 10

theorem classes_pos {config : Config} (h : ¬ config.Invalid) (cls : Class) :
    0 < config.classes cls := by
  unfold Invalid at h
  cases cls <;> simp only [classes] <;> omega

theorem inbound_pos {config : Config} (h : ¬ config.Invalid) : 0 < config.inbound := by
  unfold Invalid at h
  omega

/-- Both parts of the upload are positive. -/
theorem queryBytes_pos {config : Config} (h : ¬ config.Invalid) : 0 < config.upload / 8 := by
  unfold Invalid at h
  omega

theorem replyBytes_pos {config : Config} (h : ¬ config.Invalid) :
    0 < config.upload - config.upload / 8 := by
  unfold Invalid at h
  omega

end Config

/-! The fixed rates are positive. -/

theorem responses_pos : 0 < 128 := by decide

theorem ipInbound_pos : 0 < 5 := by decide

theorem ipQueries_pos : 0 < 2 := by decide

/-- `Decision`. -/
structure Decision where
  wait : Nat
  reasons : Nat
  deriving DecidableEq, Repr

/-! ## The state -/

/-- `IpState`, with the address it is stored under. -/
structure IpState where
  ip : IpAddr
  inbound : Limiter
  queries : Limiter
  touched : Nat
  verificationUntil : Option Nat

/-- `State`. -/
structure State where
  queries : Class → Limiter
  inbound : Limiter
  responses : Limiter
  queryBytes : Limiter
  replyBytes : Limiter
  ips : Table IpState IpState.ip
  cleanup : Nat
  verificationQueued : Nat
  verificationLimit : Nat

/-- The number of the first clock reading that a class takes in `config.classes().map`. -/
def Class.reading : Class → Nat
  | .collector => 0
  | .control => 2
  | .sampling => 4
  | .verification => 6

/-- `Budget::new`. -/
def State.new (config : Config) (t : Nat → Nat) : Except String State :=
  if h : config.Invalid then
    .error "DHT 主动速率至少 10/s，入站至少 1/s，发送至少 32768 B/s"
  else
    .ok
      { queries := fun cls => .new (config.classes cls) (Config.classes_pos h cls)
          (fun i => t (cls.reading + i))
        inbound := .new config.inbound (Config.inbound_pos h) (fun i => t (8 + i))
        responses := .new 128 responses_pos (fun i => t (10 + i))
        queryBytes := .new (config.upload / 8) (Config.queryBytes_pos h) (fun i => t (12 + i))
        replyBytes := .new (config.upload - config.upload / 8) (Config.replyBytes_pos h)
          (fun i => t (14 + i))
        ips := .empty
        cleanup := t 16
        verificationQueued := 0
        verificationLimit := config.classes .verification * 5 }

/-- The entry that `or_insert_with` makes in `State::track`. -/
def IpState.new (ip : IpAddr) (now : Nat) (t : Nat → Nat) : IpState where
  ip := ip
  inbound := .new 5 ipInbound_pos t
  queries := .new 2 ipQueries_pos (fun i => t (2 + i))
  touched := now
  verificationUntil := none

/-- `is_some_and(|until| until > now)`: a verification cooldown that still runs. -/
def IpState.cooling (row : IpState) (now : Nat) : Bool :=
  row.verificationUntil.any (fun last => decide (now < last))

/-- An entry that `State::clean` retains. -/
def IpState.retained (row : IpState) (now : Nat) : Bool :=
  decide (now - row.touched < 60 * SECOND) || row.cooling now

namespace State

/-- `State::clean`. -/
def clean (s : State) (now : Nat) : State :=
  if s.cleanup ≤ now then
    { s with ips := s.ips.delete (fun row => !row.retained now), cleanup := now + SECOND }
  else s

/-- `State::track`. -/
def track (s : State) (ip : IpAddr) (t : Nat → Nat) : Bool × State :=
  let s := s.clean (t 0)
  if IP_LIMIT ≤ s.ips.rows.length ∧ s.ips.get? ip = none then (false, s)
  else
    let now := t 1
    let row := (s.ips.get? ip).getD (.new ip now (fun i => t (2 + i)))
    (true, { s with ips := s.ips.insert { row with touched := now } })

/-! ## Operations -/

/-- The reasons of three waits: bit `i` for a positive wait number `i`. -/
def reasons (waits : List Nat) : Nat :=
  waits.zipIdx.foldl (fun mask wait => if wait.1 = 0 then mask else mask ||| 1 <<< wait.2) 0

/-- The longest of the waits. -/
def longest (waits : List Nat) : Nat := waits.foldl max 0

/-- The state with the three limiters of a query written back. -/
def putQuery (s : State) (cls : Class) (row : IpState) (a b c : Limiter) : State :=
  { s with
    queries := Function.update s.queries cls a
    ips := s.ips.insert { row with queries := b }
    queryBytes := c }

/-- `Budget::query_observed`. -/
def queryObserved (s : State) (cls : Class) (ip : IpAddr) (bytes : Nat) (t : Nat → Nat) :
    Option (Decision × State) :=
  match s.track ip t with
  | (false, s) => some (⟨SECOND, 8⟩, s)
  | (true, s) => do
    let row ← s.ips.get? ip
    let a := (s.queries cls).check 1 false (fun i => t (6 + i))
    let b := row.queries.check 1 false (fun i => t (8 + i))
    let c := s.queryBytes.check (bytes % 2 ^ 32) false (fun i => t (10 + i))
    let waits := [a.1, b.1, c.1]
    let decision : Decision := ⟨longest waits, reasons waits⟩
    if decision.wait = 0 then
      let a := a.2.check 1 true (fun i => t (12 + i))
      let b := b.2.check 1 true (fun i => t (14 + i))
      let c := c.2.check (bytes % 2 ^ 32) true (fun i => t (16 + i))
      some (decision, s.putQuery cls row a.2 b.2 c.2)
    else some (decision, s.putQuery cls row a.2 b.2 c.2)

/-- The state with the two limiters of an ordinary datagram written back. -/
def putInbound (s : State) (row : IpState) (a b : Limiter) : State :=
  { s with inbound := a, ips := s.ips.insert { row with inbound := b } }

/-- `State::ordinary`: a positive first wait ends the probing. -/
def ordinary (s : State) (ip : IpAddr) (t : Nat → Nat) : Option (Bool × State) :=
  match s.track ip t with
  | (false, s) => some (false, s)
  | (true, s) => do
    let row ← s.ips.get? ip
    let a := s.inbound.check 1 false (fun i => t (6 + i))
    if a.1 ≠ 0 then some (false, s.putInbound row a.2 row.inbound)
    else
      let b := row.inbound.check 1 false (fun i => t (8 + i))
      if b.1 ≠ 0 then some (false, s.putInbound row a.2 b.2)
      else
        let a := a.2.check 1 true (fun i => t (10 + i))
        let b := b.2.check 1 true (fun i => t (12 + i))
        some (true, s.putInbound row a.2 b.2)

/-- `Budget::inbound`. -/
def admitInbound (s : State) (ip : IpAddr) (pendingSource : Bool) (t : Nat → Nat) :
    Option (Bool × State) :=
  if pendingSource then
    let a := s.responses.check 1 true t
    some (decide (a.1 = 0), { s with responses := a.2 })
  else s.ordinary ip t

/-- `Budget::disguised_query`. -/
def disguisedQuery (s : State) (ip : IpAddr) (t : Nat → Nat) : Option (Bool × State) :=
  s.ordinary ip t

/-- `Budget::reply`. -/
def reply (s : State) (bytes : Nat) (t : Nat → Nat) : Bool × State :=
  let a := s.replyBytes.check (bytes % 2 ^ 32) true t
  (decide (a.1 = 0), { s with replyBytes := a.2 })

/-- `Budget::admit_verification`. -/
def admitVerification (s : State) (ip : IpAddr) (t : Nat → Nat) : Option (Bool × State) :=
  match s.track ip t with
  | (false, s) => some (false, s)
  | (true, s) => do
    let now := t 6
    let row ← s.ips.get? ip
    if row.cooling now then some (false, s)
    else if s.verificationLimit ≤ s.verificationQueued then some (false, s)
    else
      some (true,
        { s with
          ips := s.ips.insert { row with verificationUntil := some (now + 60 * SECOND) }
          verificationQueued := s.verificationQueued + 1 })

/-- `VerificationPermit::drop`: the count of an empty queue cannot be lowered. -/
def dropPermit (s : State) : Option State :=
  if s.verificationQueued = 0 then none
  else some { s with verificationQueued := s.verificationQueued - 1 }

end State

end BtSniffer.Traffic
