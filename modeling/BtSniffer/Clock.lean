import BtSniffer.Dht.NodeId

/-!
# Monotonic and wall clock

Reference model of `src/clock.rs`.  A `SystemTime` is a number of nanoseconds from the Unix epoch; it
has 63 bits of seconds.
-/

set_option autoImplicit false

namespace BtSniffer

/-- The end of the range of `SystemTime`. -/
def TIME_LIMIT : Nat := 2 ^ 63 * 1000000000

/-- `ClockError`. -/
inductive ClockError where
  | beforeEpoch
  | millisOverflow
  | monotonicBackwards
  | wallOverflow
  deriving DecidableEq, Repr

/-- `ClockError::label`. -/
def ClockError.label : ClockError → String
  | .beforeEpoch => "时间早于 Unix epoch"
  | .millisOverflow => "时间溢出"
  | .monotonicBackwards => "单调时间回退"
  | .wallOverflow => "UTC 时间溢出"

/-- `unix_millis`. -/
def unixMillis (time : Int) : Except ClockError Int :=
  if time < 0 then .error .beforeEpoch
  else if time / 1000000 < 2 ^ 63 then .ok (time / 1000000)
  else .error .millisOverflow

/-- `SystemTime::checked_add`. -/
def wallAdd (wall : Int) (duration : Nat) : Except ClockError Int :=
  if wall + duration < TIME_LIMIT then .ok (wall + duration) else .error .wallOverflow

/-- `Clock`. -/
structure Clock where
  monotonic : Nat
  wall : Int
  deriving DecidableEq, Repr

namespace Clock

/-- `Clock::wall_at`. -/
def wallAt (clock : Clock) (now : Nat) : Except ClockError Int :=
  if now < clock.monotonic then .error .monotonicBackwards
  else wallAdd clock.wall (now - clock.monotonic)

/-- `Clock::millis_at`: rounded up, so that no cooldown ends early on disk. -/
def millisAt (clock : Clock) (now : Nat) : Except ClockError Int := do
  let wall ← clock.wallAt now
  let wall ← wallAdd wall 999999
  unixMillis wall

end Clock

end BtSniffer
